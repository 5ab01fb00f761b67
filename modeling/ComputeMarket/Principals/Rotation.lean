import ComputeMarket.Principals.Authority

/-!
# Rotation safety

What each operation of the identity authority does to the bindings and the rotations is one of
four effects (`Effect`), and each effect keeps the tables `Orderly`.
-/

namespace ComputeMarket.Principals

namespace IdentityTables

variable {tables after : IdentityTables}

/-! ## Writes -/

variable {authority operation_id subject : String} {binding : IdentityBinding}
    {intent : RotationIntent}

theorem onIntegrity_eq_ok {text : String} {outcome : Except AuthorityError IdentityTables} :
    onIntegrity text outcome = .ok after ↔ outcome = .ok after := by
  unfold onIntegrity
  cases outcome with
  | ok => exact Iff.rfl
  | error raised =>
    cases raised <;> exact iff_of_false (fun never => by cases never) fun never => by cases never

theorem record_eq_ok :
    tables.record authority operation_id = .ok after ↔ (authority, operation_id) ∉ tables.audit ∧
      after = { tables with audit := tables.audit ++ [(authority, operation_id)] } := by
  unfold record
  split
  next used =>
    exact iff_of_false (fun never => by cases never) fun both => both.1 (List.contains_iff_mem.mp used)
  next fresh =>
  constructor
  · intro done
    cases done
    exact ⟨fun used => fresh (List.contains_iff_mem.mpr used), rfl⟩
  · rintro ⟨-, rfl⟩
    rfl

theorem upsertBinding_of_ok (done : tables.upsertBinding binding = .ok after) :
    after = { tables with bindings := tables.bindings.put binding } := by
  unfold upsertBinding at done
  obtain ⟨-, done⟩ := refuse_eq_ok.mp done
  cases done
  rfl

theorem insertBinding_of_ok (done : tables.insertBinding binding = .ok after) :
    after = { tables with bindings := tables.bindings.put binding } := by
  unfold insertBinding at done
  obtain ⟨-, done⟩ := refuse_eq_ok.mp done
  exact upsertBinding_of_ok done

theorem writePeer_of_ok {peer : ServicePeer} (done : tables.writePeer peer = .ok after) :
    after = { tables with peers := tables.peers.put peer } := by
  unfold writePeer at done
  obtain ⟨-, done⟩ := refuse_eq_ok.mp done
  cases done
  rfl

theorem followPeer_of_ok (done : tables.followPeer intent = .ok after) :
    ∃ peers, after = { tables with peers := peers } := by
  unfold followPeer at done
  split at done
  next =>
    split at done
    next =>
      cases done
      exact ⟨_, rfl⟩
    next => exact ⟨_, writePeer_of_ok done⟩
  next =>
    cases done
    exact ⟨_, rfl⟩

theorem mem_bound :
    binding ∈ tables.bound authority subject ↔
      binding ∈ tables.bindings ∧ binding.authority = authority ∧ binding.subject = subject := by
  rw [bound, List.mem_filter, decide_eq_true_eq]
  rfl

/-! ## The effects of an operation -/

/-- What an operation at a time does to the bindings and the rotations: nothing; a first binding;
a rotation, of the intent it asks for; or a binding leaves service. -/
inductive Effect (crypto : Cryptography) (maxOverlapSeconds : ℕ) (now : ℤ)
    (asked : Option RotationIntent) (before after : IdentityTables) : Prop
  | quiet (bindings : after.bindings = before.bindings)
      (rotations : after.rotations = before.rotations) (audit : before.audit ⊆ after.audit)
  | bound (binding : IdentityBinding) (status : binding.status = .primary)
      (until_ : binding.overlap_until = none)
      (first : before.bound binding.authority binding.subject = [])
      (bindings : after.bindings = before.bindings.put binding)
      (rotations : after.rotations = before.rotations) (audit : before.audit ⊆ after.audit)
  | rotated (intent : RotationIntent) (message : List UInt8) (current replacement : IdentityBinding)
      (asks : asked = some intent) (signed : canonicalRotationBytes intent = .ok message)
      (short : intent.overlap_seconds ≤ maxOverlapSeconds)
      (found : before.binding? intent.authority intent.subject intent.current = some current)
      (primary : current.status = .primary)
      (alone : ∀ binding ∈ before.bound intent.authority intent.subject,
        binding.status = .overlap → binding.activeAt now = false)
      (fresh : before.binding? intent.authority intent.subject intent.replacement = none)
      (named : key replacement = (intent.authority, intent.subject, intent.replacement))
      (status : replacement.status = .primary) (until_ : replacement.overlap_until = none)
      (bindings : after.bindings =
        (before.bindings.put (current.rotatedOut intent now)).put replacement)
      (rotations : after.rotations =
        before.rotations.put (intent.row (crypto.sha256 message) now))
      (unused : (intent.authority, intent.nonce) ∉ before.audit)
      (audit : after.audit = before.audit ++ [(intent.authority, intent.nonce)])
  | demoted (binding : IdentityBinding) (status : BindingStatus) (member : binding ∈ before.bindings)
      (leaves : status.owns = false)
      (bindings : after.bindings =
        before.bindings.put { binding with status := status, overlap_until := none })
      (rotations : after.rotations = before.rotations) (audit : before.audit ⊆ after.audit)

section

variable {crypto : Cryptography} {maxOverlapSeconds : ℕ} {now : ℤ} {asked : Option RotationIntent}
    {role : String} {principal : Identity}

theorem seedBinding_cases
    (done : tables.seedBinding authority subject role principal now = .ok after) :
    (after.bindings = tables.bindings ∨ tables.bound authority subject = [] ∧
      after.bindings =
        tables.bindings.put ⟨authority, subject, principal, .primary, none, now⟩) ∧
      after.rotations = tables.rotations ∧ after.audit = tables.audit := by
  unfold seedBinding at done
  simp only at done
  split at done
  next first =>
    have written := insertBinding_of_ok done
    subst written
    exact ⟨.inr ⟨first, rfl⟩, rfl, rfl⟩
  next =>
    cases done
    exact ⟨.inl rfl, rfl, rfl⟩

theorem Effect.of_seeded
    (bindings : after.bindings = tables.bindings ∨ tables.bound authority subject = [] ∧
      after.bindings = tables.bindings.put ⟨authority, subject, principal, .primary, none, now⟩)
    (rotations : after.rotations = tables.rotations) (audit : after.audit = tables.audit) :
    Effect crypto maxOverlapSeconds now asked tables after := by
  have kept : tables.audit ⊆ after.audit := by
    rw [audit]
    exact List.Subset.refl _
  rcases bindings with same | ⟨first, put⟩
  · exact .quiet same rotations kept
  · exact .bound ⟨authority, subject, principal, .primary, none, now⟩ rfl rfl first put rotations kept

theorem registerSubject_effect
    (done : tables.registerSubject authority subject role principal now = .ok after) :
    Effect crypto maxOverlapSeconds now asked tables after := by
  unfold registerSubject at done
  obtain ⟨-, done⟩ := refuse_eq_ok.mp done
  obtain ⟨-, done⟩ := refuse_eq_ok.mp done
  obtain ⟨bindings, rotations, audit⟩ := seedBinding_cases (onIntegrity_eq_ok.mp done)
  exact .of_seeded bindings rotations audit

theorem registerServicePeer_effect {peer_id site_id : String}
    (done : tables.registerServicePeer peer_id role site_id principal now = .ok after) :
    Effect crypto maxOverlapSeconds now asked tables after := by
  unfold registerServicePeer at done
  obtain ⟨-, done⟩ := refuse_eq_ok.mp done
  obtain ⟨-, done⟩ := refuse_eq_ok.mp done
  split at done
  next => cases done
  next =>
    obtain ⟨seeded, binding, written⟩ := bind_eq_ok.mp (onIntegrity_eq_ok.mp done)
    obtain ⟨bindings, rotations, audit⟩ := seedBinding_cases binding
    split at written
    next =>
      have peers := writePeer_of_ok written
      subst peers
      exact .of_seeded bindings rotations audit
    next =>
      cases written
      exact .of_seeded bindings rotations audit

theorem rotationProblem_eq_none {current : IdentityBinding}
    (fine : tables.rotationProblem intent current now = none) :
    current.status = .primary ∧
      (∀ binding ∈ tables.bound intent.authority intent.subject,
        binding.status = .overlap → binding.activeAt now = false) ∧
      tables.binding? intent.authority intent.subject intent.replacement = none := by
  unfold rotationProblem at fine
  split at fine
  next => cases fine
  next primary =>
  split at fine
  next => cases fine
  next alone =>
  split at fine
  next => cases fine
  next fresh =>
  refine ⟨not_not.mp primary, fun binding member overlaps => ?_,
    Option.not_isSome_iff_eq_none.mp fresh⟩
  by_contra active
  refine alone (List.any_eq_true.mpr ⟨binding, member, ?_⟩)
  rw [Bool.and_eq_true, decide_eq_true_eq]
  exact ⟨overlaps, Bool.not_eq_false _ ▸ active⟩

theorem applyRotation_effect {request : RotationRequest}
    (done : tables.applyRotation crypto maxOverlapSeconds request now = .ok after) :
    Effect crypto maxOverlapSeconds now (some request.intent) tables after := by
  unfold applyRotation at done
  simp only at done
  split at done
  next => cases done
  next message signed =>
  obtain ⟨-, done⟩ := refuse_eq_ok.mp done
  obtain ⟨short, done⟩ := refuse_eq_ok.mp done
  split at done
  next =>
    obtain ⟨-, done⟩ := refuse_eq_ok.mp done
    cases done
    exact .quiet rfl rfl (List.Subset.refl _)
  next =>
    unfold rotateFresh at done
    obtain ⟨-, done⟩ := refuse_eq_ok.mp done
    split at done
    next => cases done
    next current found =>
    split at done
    next => cases done
    next fine =>
    obtain ⟨primary, alone, fresh⟩ := rotationProblem_eq_none fine
    obtain ⟨bound, written, rest⟩ := bind_eq_ok.mp (onIntegrity_eq_ok.mp done)
    have written := upsertBinding_of_ok written
    subst written
    obtain ⟨followed, follows, recorded⟩ := bind_eq_ok.mp rest
    obtain ⟨peers, rfl⟩ := followPeer_of_ok follows
    obtain ⟨unused, rfl⟩ := record_eq_ok.mp recorded
    exact .rotated request.intent message current _ rfl signed (not_lt.mp short) found
      primary alone fresh rfl rfl rfl rfl rfl unused rfl

theorem Effect.of_demoted {status : BindingStatus} (peers : Table ServicePeer)
    (member : binding ∈ tables.bindings) (leaves : status.owns = false)
    (recorded : ({ tables.demote binding status with peers := peers } : IdentityTables).record
      authority operation_id = .ok after) :
    Effect crypto maxOverlapSeconds now asked tables after := by
  obtain ⟨-, rfl⟩ := record_eq_ok.mp recorded
  exact .demoted binding status member leaves rfl rfl (List.subset_append_left _ _)

theorem completeRotation_effect {rotation_nonce : String}
    (done : tables.completeRotation authority subject rotation_nonce principal = .ok after) :
    Effect crypto maxOverlapSeconds now asked tables after := by
  unfold completeRotation at done
  split at done
  next => cases done
  next =>
    obtain ⟨-, done⟩ := refuse_eq_ok.mp done
    obtain ⟨-, done⟩ := refuse_eq_ok.mp done
    split at done
    next => cases done
    next current found =>
    have member := (Table.find?_eq_some.mp found).1
    split at done
    next =>
      cases done
      exact .quiet rfl rfl (List.Subset.refl _)
    next => cases done
    next => exact .of_demoted tables.peers member rfl done
    next => exact .of_demoted tables.peers member rfl done

theorem retire_effect {actor : Identity}
    (done : tables.retire authority subject principal actor operation_id now = .ok after) :
    Effect crypto maxOverlapSeconds now asked tables after := by
  unfold retire at done
  obtain ⟨-, done⟩ := refuse_eq_ok.mp done
  split at done
  next => cases done
  next target found =>
  have member := (Table.find?_eq_some.mp found).1
  split at done
  next =>
    cases done
    exact .quiet rfl rfl (List.Subset.refl _)
  next =>
    obtain ⟨-, done⟩ := refuse_eq_ok.mp done
    obtain ⟨-, done⟩ := refuse_eq_ok.mp done
    exact .of_demoted tables.peers member rfl done

theorem disable_effect
    (done : tables.disable authority subject principal operation_id now = .ok after) :
    Effect crypto maxOverlapSeconds now asked tables after := by
  unfold disable at done
  split at done
  next => cases done
  next target found =>
  have member := (Table.find?_eq_some.mp found).1
  obtain ⟨-, done⟩ := refuse_eq_ok.mp done
  simp only at done
  split at done
  next =>
    unfold refreshPeer at done
    split at done
    next => exact .of_demoted tables.peers member rfl done
    next => exact .of_demoted _ member rfl done
  next => exact .of_demoted tables.peers member rfl done

def asks : AuthorityOp → Option RotationIntent
  | .applyRotation request => some request.intent
  | _ => none

theorem run_effect {op : AuthorityOp} (done : op.run crypto maxOverlapSeconds tables now = .ok after) :
    Effect crypto maxOverlapSeconds now (asks op) tables after := by
  cases op with
  | registerSubject authority subject role principal => exact registerSubject_effect done
  | registerServicePeer peer_id role site_id principal => exact registerServicePeer_effect done
  | applyRotation request => exact applyRotation_effect done
  | completeRotation authority subject rotation_nonce principal => exact completeRotation_effect done
  | retire authority subject principal actor operation_id => exact retire_effect done
  | disable authority subject principal operation_id => exact disable_effect done

end

/-! ## Orderly tables -/

theorem activeAt_of_le {clock now : ℤ} (later : clock ≤ now)
    (active : binding.activeAt now = true) :
    binding.activeAt clock = true := by
  unfold IdentityBinding.activeAt at active ⊢
  cases known : binding.overlap_until with
  | none => simpa [known] using active
  | some until_ =>
    simp only [known, Option.any_some, Bool.or_eq_true, Bool.and_eq_true, decide_eq_true_eq]
      at active ⊢
    exact active.imp_right fun both => ⟨both.1, by omega⟩

/-- What holds of the tables at a time: a subject has one primary binding and one overlap that
has not expired, at most; an overlap is that of a rotation, and as long as the authority allows;
a rotation was audited under its nonce, and the authority's rotations have nonces of their
own. -/
structure Orderly (maxOverlapSeconds : ℕ) (tables : IdentityTables) (clock : ℤ) : Prop where
  onePrimary : ∀ first ∈ tables.bindings, ∀ second ∈ tables.bindings,
    first.authority = second.authority → first.subject = second.subject →
      first.status = .primary → second.status = .primary → first = second
  oneOverlap : ∀ first ∈ tables.bindings, ∀ second ∈ tables.bindings,
    first.authority = second.authority → first.subject = second.subject →
      first.status = .overlap → second.status = .overlap →
        first.activeAt clock = true → second.activeAt clock = true → first = second
  traced : ∀ binding ∈ tables.bindings, ∀ until_, binding.overlap_until = some until_ →
    ∃ rotation ∈ tables.rotations, rotation.authority = binding.authority ∧
      rotation.subject = binding.subject ∧ rotation.current = binding.principal ∧
        rotation.overlap_until = until_
  bounded : ∀ rotation ∈ tables.rotations,
    rotation.overlap_until ≤ rotation.applied_at + maxOverlapSeconds
  audited : ∀ rotation ∈ tables.rotations, (rotation.authority, rotation.nonce) ∈ tables.audit
  apart : ∀ first ∈ tables.rotations, ∀ second ∈ tables.rotations,
    first.authority = second.authority → first.nonce = second.nonce → first = second

namespace Orderly

variable {crypto : Cryptography} {maxOverlapSeconds : ℕ} {clock now : ℤ}

theorem empty (clock : ℤ) : Orderly maxOverlapSeconds .empty clock where
  onePrimary := fun _ never => absurd never Table.not_mem_empty
  oneOverlap := fun _ never => absurd never Table.not_mem_empty
  traced := fun _ never => absurd never Table.not_mem_empty
  bounded := fun _ never => absurd never Table.not_mem_empty
  audited := fun _ never => absurd never Table.not_mem_empty
  apart := fun _ never => absurd never Table.not_mem_empty

theorem still (orderly : Orderly maxOverlapSeconds tables clock) (later : clock ≤ now)
    (bindings : ∀ binding ∈ after.bindings, binding ∈ tables.bindings ∨
      binding.status.owns = false ∧ binding.overlap_until = none)
    (rotations : after.rotations = tables.rotations) (audit : tables.audit ⊆ after.audit) :
    Orderly maxOverlapSeconds after now := by
  have old {binding : IdentityBinding} (member : binding ∈ after.bindings)
      (owns : binding.status.owns = true) : binding ∈ tables.bindings :=
    (bindings binding member).resolve_right fun both => by
      rw [both.1] at owns
      cases owns
  refine ⟨fun first one second other authority subject primary primary' => ?_,
    fun first one second other authority subject overlap overlap' active active' => ?_,
    fun binding member until_ ends => ?_, fun rotation member => ?_, fun rotation member => ?_,
    fun first one second other => ?_⟩
  · exact orderly.onePrimary first (old one (by rw [primary]; rfl)) second
      (old other (by rw [primary']; rfl)) authority subject primary primary'
  · exact orderly.oneOverlap first (old one (by rw [overlap]; rfl)) second
      (old other (by rw [overlap']; rfl)) authority subject overlap overlap'
      (activeAt_of_le later active) (activeAt_of_le later active')
  · rcases bindings binding member with there | ⟨-, never⟩
    · rw [rotations]
      exact orderly.traced binding there until_ ends
    · rw [never] at ends
      cases ends
  · exact orderly.bounded rotation (rotations ▸ member)
  · exact audit (orderly.audited rotation (rotations ▸ member))
  · rw [rotations] at one other
    exact orderly.apart first one second other

theorem bound (orderly : Orderly maxOverlapSeconds tables clock) (later : clock ≤ now)
    (status : binding.status = .primary) (until_ : binding.overlap_until = none)
    (first : tables.bound binding.authority binding.subject = [])
    (bindings : after.bindings = tables.bindings.put binding)
    (rotations : after.rotations = tables.rotations) (audit : tables.audit ⊆ after.audit) :
    Orderly maxOverlapSeconds after now := by
  have aged : Orderly maxOverlapSeconds tables now :=
    orderly.still later (fun _ member => .inl member) rfl (List.Subset.refl _)
  have alone {other : IdentityBinding} (member : other ∈ tables.bindings)
      (authority : other.authority = binding.authority) (subject : other.subject = binding.subject) :
      False := by
    have inside := mem_bound.mpr ⟨member, authority, subject⟩
    rw [first] at inside
    cases inside
  refine ⟨fun first one second other authority subject primary primary' => ?_,
    fun first one second other authority subject overlap overlap' => ?_,
    fun other member end_ ends => ?_, fun rotation member => ?_, fun rotation member => ?_,
    fun first one second other => ?_⟩
  · rw [bindings] at one other
    exact Table.pairs_put aged.onePrimary (fun _ _ _ _ => rfl)
      (fun old there _ => ⟨fun authority subject => (alone there authority.symm subject.symm).elim,
        fun authority subject => (alone there authority subject).elim⟩)
      first one second other authority subject primary primary'
  · rw [bindings] at one other
    rcases Table.mem_put.mp one with rfl | ⟨one, -⟩
    · rw [status] at overlap
      cases overlap
    · rcases Table.mem_put.mp other with rfl | ⟨other, -⟩
      · rw [status] at overlap'
        cases overlap'
      · exact aged.oneOverlap first one second other authority subject overlap overlap'
  · rw [bindings] at member
    rcases Table.mem_put.mp member with rfl | ⟨there, -⟩
    · rw [until_] at ends
      cases ends
    · rw [rotations]
      exact orderly.traced other there end_ ends
  · exact orderly.bounded rotation (rotations ▸ member)
  · exact audit (orderly.audited rotation (rotations ▸ member))
  · rw [rotations] at one other
    exact orderly.apart first one second other

theorem mem_rotations (orderly : Orderly maxOverlapSeconds tables clock) {intent_hash : String}
    {rotation : IdentityRotation} (unused : (intent.authority, intent.nonce) ∉ tables.audit) :
    rotation ∈ tables.rotations.put (intent.row intent_hash now) ↔
      rotation = intent.row intent_hash now ∨ rotation ∈ tables.rotations := by
  rw [Table.mem_put]
  refine or_congr_right (and_iff_left_of_imp fun member same => unused ?_)
  have audited := orderly.audited rotation member
  have authority : rotation.authority = intent.authority := congrArg Prod.fst same
  have nonce : rotation.nonce = intent.nonce := congrArg (fun parts => parts.2.2) same
  rwa [authority, nonce] at audited

theorem rotated (orderly : Orderly maxOverlapSeconds tables clock) (later : clock ≤ now)
    {intent_hash : String} {current replacement : IdentityBinding}
    (short : intent.overlap_seconds ≤ maxOverlapSeconds)
    (found : tables.binding? intent.authority intent.subject intent.current = some current)
    (primary : current.status = .primary)
    (alone : ∀ binding ∈ tables.bound intent.authority intent.subject,
      binding.status = .overlap → binding.activeAt now = false)
    (named : key replacement = (intent.authority, intent.subject, intent.replacement))
    (status : replacement.status = .primary) (until_ : replacement.overlap_until = none)
    (bindings : after.bindings =
      (tables.bindings.put (current.rotatedOut intent now)).put replacement)
    (rotations : after.rotations = tables.rotations.put (intent.row intent_hash now))
    (unused : (intent.authority, intent.nonce) ∉ tables.audit)
    (audit : after.audit = tables.audit ++ [(intent.authority, intent.nonce)]) :
    Orderly maxOverlapSeconds after now := by
  obtain ⟨isBound, currentKey⟩ := Table.find?_eq_some.mp found
  have currentAuthority : current.authority = intent.authority := congrArg Prod.fst currentKey
  have currentSubject : current.subject = intent.subject :=
    congrArg (fun parts => parts.2.1) currentKey
  have replacementAuthority : replacement.authority = intent.authority := congrArg Prod.fst named
  have replacementSubject : replacement.subject = intent.subject :=
    congrArg (fun parts => parts.2.1) named
  -- the bindings behind: the replacement, the one rotated out, and those of before but it
  have split {binding : IdentityBinding} (member : binding ∈ after.bindings) :
      binding = replacement ∨ binding = current.rotatedOut intent now ∨
        binding ∈ tables.bindings ∧ binding ≠ current := by
    rw [bindings] at member
    rcases Table.mem_put.mp member with new | ⟨there, -⟩
    · exact .inl new
    · rcases Table.mem_put.mp there with out | ⟨old, differs⟩
      · exact .inr (.inl out)
      · refine .inr (.inr ⟨old, ?_⟩)
        rintro rfl
        exact differs rfl
  have outStatus : (current.rotatedOut intent now).status ≠ .primary := by
    unfold IdentityBinding.rotatedOut
    simp only
    split
    · exact fun never => by cases never
    · exact fun never => by cases never
  -- a primary of the subject is the replacement
  have isReplacement {binding : IdentityBinding} (member : binding ∈ after.bindings)
      (authority : binding.authority = intent.authority) (subject : binding.subject = intent.subject)
      (isPrimary : binding.status = .primary) : binding = replacement := by
    rcases split member with new | rfl | ⟨old, differs⟩
    · exact new
    · exact absurd isPrimary outStatus
    · exact absurd (orderly.onePrimary binding old current isBound (authority.trans currentAuthority.symm)
        (subject.trans currentSubject.symm) isPrimary primary) differs
  -- an overlap of the subject that has not expired is the one rotated out
  have isOut {binding : IdentityBinding} (member : binding ∈ after.bindings)
      (authority : binding.authority = intent.authority) (subject : binding.subject = intent.subject)
      (overlap : binding.status = .overlap) (active : binding.activeAt now = true) :
      binding = current.rotatedOut intent now := by
    rcases split member with rfl | out | ⟨old, -⟩
    · rw [status] at overlap
      cases overlap
    · exact out
    · rw [alone binding (mem_bound.mpr ⟨old, authority, subject⟩) overlap] at active
      cases active
  -- bindings of other subjects are those of before
  have isOld {binding : IdentityBinding} (member : binding ∈ after.bindings)
      (other : ¬(binding.authority = intent.authority ∧ binding.subject = intent.subject)) :
      binding ∈ tables.bindings := by
    rcases split member with rfl | rfl | ⟨old, -⟩
    · exact absurd ⟨replacementAuthority, replacementSubject⟩ other
    · exact absurd ⟨currentAuthority, currentSubject⟩ other
    · exact old
  refine ⟨fun first one second other authority subject isPrimary isPrimary' => ?_,
    fun first one second other authority subject overlap overlap' active active' => ?_,
    fun binding member end_ ends => ?_, fun rotation member => ?_, fun rotation member => ?_,
    fun first one second other authority nonce => ?_⟩
  · by_cases own : first.authority = intent.authority ∧ first.subject = intent.subject
    · rw [isReplacement one own.1 own.2 isPrimary,
        isReplacement other (authority ▸ own.1) (subject ▸ own.2) isPrimary']
    · exact orderly.onePrimary first (isOld one own) second
        (isOld other (by rwa [← authority, ← subject])) authority subject isPrimary isPrimary'
  · by_cases own : first.authority = intent.authority ∧ first.subject = intent.subject
    · rw [isOut one own.1 own.2 overlap active,
        isOut other (authority ▸ own.1) (subject ▸ own.2) overlap' active']
    · exact orderly.oneOverlap first (isOld one own) second
        (isOld other (by rwa [← authority, ← subject])) authority subject overlap overlap'
        (activeAt_of_le later active) (activeAt_of_le later active')
  · rw [rotations]
    rcases split member with rfl | rfl | ⟨old, -⟩
    · rw [until_] at ends
      cases ends
    · refine ⟨intent.row intent_hash now, (orderly.mem_rotations unused).mpr (.inl rfl),
        currentAuthority.symm, currentSubject.symm, (congrArg (fun parts => parts.2.2) currentKey).symm,
        ?_⟩
      unfold IdentityBinding.rotatedOut at ends
      simp only at ends
      split at ends
      · cases ends
      · exact Option.some.inj ends
    · obtain ⟨rotation, there, same⟩ := orderly.traced binding old end_ ends
      exact ⟨rotation, (orderly.mem_rotations unused).mpr (.inr there), same⟩
  · rw [rotations] at member
    rcases (orderly.mem_rotations unused).mp member with rfl | old
    · change now + (intent.overlap_seconds : ℤ) ≤ now + maxOverlapSeconds
      omega
    · exact orderly.bounded rotation old
  · rw [audit]
    rw [rotations] at member
    rcases (orderly.mem_rotations unused).mp member with rfl | old
    · exact List.mem_append_right _ (List.mem_singleton_self _)
    · exact List.mem_append_left _ (orderly.audited rotation old)
  · rw [rotations] at one other
    rcases (orderly.mem_rotations unused).mp one with rfl | old
    · rcases (orderly.mem_rotations unused).mp other with rfl | old'
      · rfl
      · have audited := orderly.audited second old'
        rw [← authority, ← nonce] at audited
        exact absurd audited unused
    · rcases (orderly.mem_rotations unused).mp other with rfl | old'
      · have audited := orderly.audited first old
        rw [authority, nonce] at audited
        exact absurd audited unused
      · exact orderly.apart first old second old' authority nonce

theorem effect (orderly : Orderly maxOverlapSeconds tables clock) (later : clock ≤ now)
    {asked : Option RotationIntent} (done : Effect crypto maxOverlapSeconds now asked tables after) :
    Orderly maxOverlapSeconds after now := by
  cases done with
  | quiet bindings rotations audit =>
    exact orderly.still later (fun _ member => .inl (bindings ▸ member)) rotations audit
  | bound binding status until_ first bindings rotations audit =>
    exact orderly.bound later status until_ first bindings rotations audit
  | rotated intent message current replacement asks signed short found primary alone fresh named status
      until_ bindings rotations unused audit =>
      exact orderly.rotated later short found primary alone named status until_ bindings rotations
        unused audit
  | demoted binding status member leaves bindings rotations audit =>
    refine orderly.still later (fun other inside => ?_) rotations audit
    rw [bindings] at inside
    rcases Table.mem_put.mp inside with rfl | ⟨old, -⟩
    · exact .inr ⟨leaves, rfl⟩
    · exact .inl old

end Orderly

end IdentityTables

end ComputeMarket.Principals
