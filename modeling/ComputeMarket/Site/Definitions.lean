import ComputeMarket.Site.Lifecycle

/-!
# Capacity-definitions documents

`reconcile_capacity_definitions_in_session` (`kit/site/src/market_site/capacity_definitions.py`):
the entries of a document are registered one after another, each against the state that the
entries before it left. An entry that stores nothing new is passed over, and one that registration
refuses is reported while the rest go on.

What an accepted document leaves is a function of the state it found (`Settled`), so neither its
order nor a second application matters. Whether it is accepted does depend on the order where an
entry takes a host that another entry's resource gives up.
-/

namespace ComputeMarket.Site

variable {σ : Type*} (composition : Composition σ) (moment : Moment)

/-! ## The comparison with the stored declaration -/

/-- `first == second` of two dictionaries. -/
def sameMapping {V : Type*} (same : V → V → Bool) (first second : Dict String V) : Bool :=
  first.rows.length = second.rows.length &&
    first.rows.all fun item => (second.get? item.1).any (same item.2)

/-- `_stored_declaration(bucket) == declaration`, for the bucket of the declaration's resource. -/
def storesDeclaration (bucket : CapacityBucket) (declaration : CapacityDeclaration) : Bool :=
  bucket.poolId = some declaration.poolId && bucket.resourceType = declaration.resourceType &&
    bucket.resourceSubtype = declaration.resourceSubtype && bucket.hostId = declaration.hostId &&
    sameMapping (fun x y => x = y) (resourceCapacity composition bucket) declaration.capacity &&
    sameMapping AttributeValue.pyEq bucket.attributes declaration.attributes &&
    bucket.enabled = declaration.enabled

inductive DeclarationChange
  | created
  | unchanged
  | updated
  deriving DecidableEq

/-- `declaration_change_in_session`. -/
def declarationChange (tables : LedgerTables) (declaration : CapacityDeclaration) :
    DeclarationChange :=
  match tables.buckets.byBackingResource declaration.resourceId with
  | none => .created
  | some bucket => if storesDeclaration composition bucket declaration then .unchanged else .updated

/-! ## Reconciliation -/

/-- What `parse_capacity_definitions` returns where it finds no problem: no resource id and no
host is named twice, and an amount is an integer or what a float is spelled as. -/
structure DefinitionsDocument (arithmetic : Arithmetic) where
  declarations : List CapacityDeclaration
  ids_distinct : (declarations.map CapacityDeclaration.resourceId).Nodup
  hosts_distinct : (declarations.filterMap CapacityDeclaration.hostId).Nodup
  amounts_spelled : ∀ declaration ∈ declarations, ∀ item ∈ declaration.capacity,
    serialize arithmetic item.2 = item.2

/-- `CapacityDefinitionProblem`. -/
structure DefinitionProblem where
  path : String
  code : String
  message : String

/-- `CapacityDefinitionsDiff`. -/
structure DefinitionsDiff where
  created : List String
  updated : List String
  unchanged : List String

/-- `getattr(diff, change).append(resource_id)`. -/
def DefinitionsDiff.append (diff : DefinitionsDiff) (change : DeclarationChange)
    (resourceId : String) : DefinitionsDiff :=
  match change with
  | .created => { diff with created := diff.created ++ [resourceId] }
  | .updated => { diff with updated := diff.updated ++ [resourceId] }
  | .unchanged => { diff with unchanged := diff.unchanged ++ [resourceId] }

/-- `CapacityDefinitionsOutcome`, beside the session it leaves. -/
structure Reconciliation (σ : Type*) where
  site : SiteState σ
  diff : DefinitionsDiff
  problems : List DefinitionProblem

/-- The problem that a refusal is reported as; anything else is raised. -/
def refusalProblem (index : ℕ) : LedgerError → Option DefinitionProblem
  | .unknownPool message => some ⟨s!"resources[{index}].pool_id", "unknown_pool", message⟩
  | .capacityConflict message => some ⟨s!"resources[{index}]", "conflict", message⟩
  | .valueError message => some ⟨s!"resources[{index}]", "invalid_declaration", message⟩
  | _ => none

/-- One turn of the loop. `newIds` draws the identifier of a bucket that the entry creates. -/
def reconcileEntry (newIds : ℕ → String) (index : ℕ) (declaration : CapacityDeclaration)
    (state : Reconciliation σ) : Except LedgerError (Reconciliation σ) :=
  let change := declarationChange composition state.site.tables declaration
  if change = .unchanged then
    .ok { state with diff := state.diff.append change declaration.resourceId }
  else
    match registerDeclarationInSession composition { moment with newId := newIds index } declaration
        state.site with
    | .ok (_, site) => .ok { state with
        site := site, diff := state.diff.append change declaration.resourceId }
    | .error raised =>
      match refusalProblem index raised with
      | some problem => .ok { state with problems := state.problems ++ [problem] }
      | none => .error raised

def reconcileEntries (newIds : ℕ → String) :
    ℕ → List CapacityDeclaration → Reconciliation σ → Except LedgerError (Reconciliation σ)
  | _, [], state => .ok state
  | index, declaration :: rest, state => do
      let next ← reconcileEntry composition moment newIds index declaration state
      reconcileEntries newIds (index + 1) rest next

/-- `reconcile_capacity_definitions_in_session` of a document without structural problems. -/
def reconcileDefinitions (newIds : ℕ → String)
    (document : DefinitionsDocument composition.arithmetic) (site : SiteState σ) :
    Except LedgerError (Reconciliation σ) :=
  reconcileEntries composition moment newIds 0 document.declarations ⟨site, ⟨[], [], []⟩, []⟩

/-! ## What a row declares -/

/-- The columns of a row are what registration writes for a declaration. -/
def Declares (row : CapacityBucket) (declaration : CapacityDeclaration) : Prop :=
  ∃ id stamp nonneg, row = ⟨id, declaration.resourceId, some declaration.poolId, declaration.hostId,
    declaration.resourceType, declaration.resourceSubtype,
    (declaration.capacity.get? composition.mirrorDimension).map truncate,
    serializeDimensions composition.arithmetic declaration.capacity, declaration.attributes,
    declaration.enabled, stamp, nonneg⟩

/-- A row without its identifier and its stamp. -/
def declaredColumns (row : CapacityBucket) : CapacityBucket :=
  { row with capacityBucketId := "", updatedAt := 0 }

variable {composition moment} {declaration : CapacityDeclaration} {bucket row row' : CapacityBucket}

theorem writeDeclaration_declares (named : bucket.backingResourceId = declaration.resourceId) :
    Declares composition (writeDeclaration composition moment bucket declaration) declaration := by
  have nonneg : ∀ item ∈ serializeDimensions composition.arithmetic declaration.capacity,
      0 ≤ item.2 := by
    intro item member
    obtain ⟨old, declared, rfl⟩ := Dict.mem_mapItems.mp member
    exact serialize_nonneg composition.arithmetic (declaration.capacity_nonneg old declared)
  unfold Declares writeDeclaration
  rw [← named]
  simp only
  split
  next unchanged => exact ⟨bucket.capacityBucketId, bucket.updatedAt, nonneg, unchanged.symm⟩
  next => exact ⟨bucket.capacityBucketId, moment.now, nonneg, rfl⟩

theorem Declares.named (declares : Declares composition row declaration) :
    row.backingResourceId = declaration.resourceId ∧ row.hostId = declaration.hostId := by
  obtain ⟨id, stamp, nonneg, rfl⟩ := declares
  exact ⟨rfl, rfl⟩

theorem Declares.columns (first : Declares composition row declaration)
    (second : Declares composition row' declaration) :
    declaredColumns row = declaredColumns row' := by
  obtain ⟨id, stamp, nonneg, rfl⟩ := first
  obtain ⟨id', stamp', nonneg', rfl⟩ := second
  rfl

theorem sameMapping_of_get? {V : Type*} {same : V → V → Bool} {first second : Dict String V}
    (length : first.rows.length = second.rows.length)
    (agree : ∀ item ∈ first, (second.get? item.1).any (same item.2) = true) :
    sameMapping same first second = true := by
  rw [sameMapping, decide_eq_true length, Bool.true_and]
  exact List.all_eq_true.mpr agree

/-- A row that declares a declaration stores it, so far as its amounts are stored exactly and its
attributes equal themselves. -/
theorem Declares.stores (declares : Declares composition row declaration)
    (spelled : ∀ item ∈ declaration.capacity, serialize composition.arithmetic item.2 = item.2)
    (equal : ∀ item ∈ declaration.attributes, item.2.pyEq item.2 = true) :
    storesDeclaration composition row declaration = true := by
  obtain ⟨id, stamp, nonneg, rfl⟩ := declares
  have amounts : sameMapping (fun x y => x = y)
      (serializeDimensions composition.arithmetic declaration.capacity) declaration.capacity =
        true := by
    refine sameMapping_of_get? (List.length_map _) fun item member => ?_
    obtain ⟨amount, declared, rfl⟩ := Dict.mem_mapItems.mp member
    rw [spelled _ declared, Dict.get?_eq_some.mpr declared]
    exact decide_eq_true rfl
  have attributes : sameMapping AttributeValue.pyEq declaration.attributes declaration.attributes =
      true := by
    refine sameMapping_of_get? rfl fun item member => ?_
    rw [Dict.get?_eq_some.mpr member]
    exact equal item member
  have named : (serializeDimensions composition.arithmetic declaration.capacity).rows ≠ [] :=
    mt List.map_eq_nil_iff.mp declaration.capacity_nonempty
  rw [storesDeclaration, resourceCapacity, if_neg named, amounts, attributes]
  simp

/-! ## One entry -/

theorem Buckets.byBackingResource_put {buckets : Buckets} {name : String}
    (own : ∀ other ∈ buckets, other.capacityBucketId = row.capacityBucketId ↔
      other.backingResourceId = row.backingResourceId) (named : row.backingResourceId = name)
    (resource : String) : (buckets.put row own).byBackingResource resource =
      if resource = name then some row else buckets.byBackingResource resource := by
  subst named
  split
  next same =>
    rw [same]
    exact Buckets.byBackingResource_of_mem (Table.mem_put.mpr (.inl rfl))
  next other =>
    cases found : buckets.byBackingResource resource with
    | some old =>
      obtain ⟨member, rfl⟩ := Buckets.mem_of_byBackingResource found
      refine Buckets.byBackingResource_of_mem (Table.mem_put.mpr (.inr ⟨member, ?_⟩))
      exact fun sameKey => other ((own old member).mp sameKey)
    | none =>
      refine List.find?_eq_none.mpr fun old stored => ?_
      rcases Table.mem_put.mp stored with rfl | ⟨member, -⟩
      · simpa using Ne.symm other
      · exact List.find?_eq_none.mp found old member

/-- What an accepted registration leaves: one row, and no other of another resource. -/
theorem registerDeclaration_ok {site after : SiteState σ} {result : Option CapacityReservation}
    (done : registerDeclarationInSession composition moment declaration site =
      .ok (result, after)) :
    refusedDeclaration moment site.tables declaration = none ∧
      after.tables.reservations = site.tables.reservations ∧
      after.tables.debits = site.tables.debits ∧ ∃ row, Declares composition row declaration ∧
        ∀ resource, after.tables.buckets.byBackingResource resource =
          if resource = declaration.resourceId then some row
          else site.tables.buckets.byBackingResource resource := by
  unfold registerDeclarationInSession at done
  split at done
  · cases done
  next accepted =>
  split at done
  · next bucket found =>
    obtain ⟨member, named⟩ := Buckets.mem_of_byBackingResource found
    have declares := @writeDeclaration_declares _ composition moment _ bucket named
    cases done
    exact ⟨accepted, rfl, rfl, _, declares, Buckets.byBackingResource_put
      (writeDeclaration_own composition moment declaration (Buckets.own_of_mem member))
      declares.named.1⟩
  next found =>
  split at done
  next fresh =>
    have declares := @writeDeclaration_declares _ composition moment declaration
      (freshBucket moment declaration.resourceId) rfl
    cases done
    exact ⟨accepted, rfl, rfl, _, declares, Buckets.byBackingResource_put
      (writeDeclaration_own composition moment declaration (Buckets.own_of_fresh fresh found))
      declares.named.1⟩
  next taken => cases done

theorem refusedDeclaration_eq_none {tables : LedgerTables} :
    refusedDeclaration moment tables declaration = none ↔
      moment.environment.pool declaration.poolId ≠ none ∧
      (∀ host, declaration.hostId = some host → ∀ row ∈ tables.buckets, row.hostId = some host →
        row.backingResourceId = declaration.resourceId) ∧
      ∀ row, tables.buckets.byBackingResource declaration.resourceId = some row →
        row.poolId = some declaration.poolId ∨ liveObligation tables row = none := by
  have moves : ∀ raised : CapacityBucket → CapacityReservation → LedgerError,
      (match tables.buckets.byBackingResource declaration.resourceId with
        | none => none
        | some row => if row.poolId = some declaration.poolId then none
          else (liveObligation tables row).map (raised row)) = none ↔
      ∀ row, tables.buckets.byBackingResource declaration.resourceId = some row →
        row.poolId = some declaration.poolId ∨ liveObligation tables row = none := by
    intro raised
    cases tables.buckets.byBackingResource declaration.resourceId with
    | none => exact iff_of_true rfl nofun
    | some row =>
      simp only [Option.some.injEq, forall_eq']
      split
      next same => exact iff_of_true rfl (.inl same)
      next differs => rw [Option.map_eq_none_iff, or_iff_right differs]
  unfold refusedDeclaration
  simp only
  split
  next missing =>
    exact iff_of_false nofun fun all => all.1 (Option.isNone_iff_eq_none.mp missing)
  next pooled =>
  have known : moment.environment.pool declaration.poolId ≠ none := by simpa using pooled
  rw [and_iff_right known]
  cases named : declaration.hostId with
  | none =>
    rw [and_iff_right (by nofun)]
    exact moves _
  | some host =>
    simp only [Option.some.injEq, forall_eq']
    split
    next other _ held same =>
      cases same
      have stored := List.mem_of_find?_eq_some held
      have taken := List.find?_some held
      simp only [Bool.and_eq_true, decide_eq_true_eq] at taken
      exact iff_of_false nofun fun all => taken.2 (all.1 other stored taken.1)
    next free =>
      refine Iff.trans (moves _) (and_iff_right fun row stored carries => ?_).symm
      by_contra elsewhere
      cases held : tables.buckets.table.rows.find? fun bucket =>
          bucket.hostId = some host && bucket.backingResourceId ≠ declaration.resourceId with
      | some other => exact free other host held rfl
      | none =>
        have unheld := List.find?_eq_none.mp held row stored
        simp [carries, elsewhere] at unheld

theorem registerDeclaration_refused {site : SiteState σ} {raised : LedgerError} {index : ℕ}
    {problem : DefinitionProblem}
    (done : registerDeclarationInSession composition moment declaration site = .error raised)
    (reported : refusalProblem index raised = some problem) :
    refusedDeclaration moment site.tables declaration ≠ none := by
  intro accepted
  unfold registerDeclarationInSession at done
  split at done
  next refusal refused =>
    rw [accepted] at refused
    cases refused
  split at done
  next => cases done
  split at done
  next => cases done
  next taken =>
    cases done
    cases reported

/-! ## The run -/

/-- No entry names a host that is stored for the resource of another entry. -/
def KeepsHosts (tables : LedgerTables) (declarations : List CapacityDeclaration) : Prop :=
  ∀ declaration ∈ declarations, ∀ host, declaration.hostId = some host →
    ∀ other ∈ declarations, ∀ row, tables.buckets.byBackingResource other.resourceId = some row →
      row.hostId = some host → other.resourceId = declaration.resourceId

variable (composition moment) in
/-- Registration takes a declaration, or has nothing to store. -/
def Accepts (tables : LedgerTables) (declaration : CapacityDeclaration) : Prop :=
  declarationChange composition tables declaration = .unchanged ∨
    refusedDeclaration moment tables declaration = none

variable (composition) in
/-- A declaration is stored: by the row that stored it before, or by one that declares it. -/
def Settled (before after : LedgerTables) (declaration : CapacityDeclaration) : Prop :=
  if declarationChange composition before declaration = .unchanged then
    after.buckets.byBackingResource declaration.resourceId =
      before.buckets.byBackingResource declaration.resourceId
  else
    ∃ row, Declares composition row declaration ∧
      after.buckets.byBackingResource declaration.resourceId = some row

variable (composition moment) in
/-- What a reconciliation has done behind it, against the state it found. -/
structure Progress (document : List CapacityDeclaration) (before : LedgerTables)
    (behind : List CapacityDeclaration) (state : Reconciliation σ) : Prop where
  reservations : state.site.tables.reservations = before.reservations
  debits : state.site.tables.debits = before.debits
  untouched : ∀ resource, (∀ entry ∈ behind, entry.resourceId ≠ resource) →
    state.site.tables.buckets.byBackingResource resource =
      before.buckets.byBackingResource resource
  touched : ∀ entry ∈ behind, Settled composition before state.site.tables entry ∨
    state.problems ≠ [] ∧ state.site.tables.buckets.byBackingResource entry.resourceId =
      before.buckets.byBackingResource entry.resourceId
  verdict : KeepsHosts before document →
    (state.problems = [] ↔ ∀ entry ∈ behind, Accepts composition moment before entry)

variable {document behind rest : List CapacityDeclaration} {before : LedgerTables}
    {state next : Reconciliation σ} {entry : CapacityDeclaration} {newIds : ℕ → String} {index : ℕ}

namespace Progress

/-- Under `KeepsHosts` an entry is refused by the state that the entries behind it left only
where the state before them refuses it. -/
theorem refused_iff (progress : Progress composition moment document before behind state)
    (keeps : KeepsHosts before document) (listed : entry ∈ document) (within : behind ⊆ document)
    (fresh : ∀ other ∈ behind, other.resourceId ≠ entry.resourceId)
    (apart : ∀ other ∈ behind, ∀ host, other.hostId = some host → entry.hostId ≠ some host) :
    refusedDeclaration moment state.site.tables entry = none ↔
      refusedDeclaration moment before entry = none := by
  have live : ∀ row, liveObligation state.site.tables row = liveObligation before row := by
    intro row
    simp only [liveObligation, heldReservations, LedgerTables.debitedTo, progress.reservations,
      progress.debits]
  rw [refusedDeclaration_eq_none, refusedDeclaration_eq_none, progress.untouched _ fresh]
  simp only [live]
  refine and_congr_right fun _ => and_congr_left fun _ =>
    forall₂_congr fun host names => ⟨fun clear row stored carries => ?_,
      fun clear row stored carries => ?_⟩
  · by_cases met : ∃ other ∈ behind, other.resourceId = row.backingResourceId
    · obtain ⟨other, passed, same⟩ := met
      have found := same ▸ Buckets.byBackingResource_of_mem stored
      exact same ▸ keeps entry listed host names other (within passed) row found carries
    · have kept := progress.untouched row.backingResourceId fun other passed same =>
        met ⟨other, passed, same⟩
      rw [Buckets.byBackingResource_of_mem stored] at kept
      exact clear row (Buckets.mem_of_byBackingResource kept).1 carries
  · have found := Buckets.byBackingResource_of_mem stored
    have old (kept : before.buckets.byBackingResource row.backingResourceId = some row) :
        row.backingResourceId = entry.resourceId :=
      clear row (Buckets.mem_of_byBackingResource kept).1 carries
    by_cases met : ∃ other ∈ behind, other.resourceId = row.backingResourceId
    · obtain ⟨other, passed, same⟩ := met
      rcases progress.touched other passed with settled | ⟨-, kept⟩
      · unfold Settled at settled
        rw [same, found] at settled
        split at settled
        · exact old settled.symm
        · obtain ⟨written, declares, isWritten⟩ := settled
          cases isWritten
          exact absurd names (apart other passed host (declares.named.2 ▸ carries))
      · rw [same, found] at kept
        exact old kept.symm
    · rw [progress.untouched row.backingResourceId fun other passed same =>
        met ⟨other, passed, same⟩] at found
      exact old found

/-- What one entry does: only its resource changes, and the verdict is its own beside those
before it. -/
theorem extend (progress : Progress composition moment document before behind state)
    (reservations : next.site.tables.reservations = state.site.tables.reservations)
    (debits : next.site.tables.debits = state.site.tables.debits)
    (elsewhere : ∀ resource, resource ≠ entry.resourceId →
      next.site.tables.buckets.byBackingResource resource =
        state.site.tables.buckets.byBackingResource resource)
    (fresh : ∀ other ∈ behind, other.resourceId ≠ entry.resourceId)
    (reported : state.problems ≠ [] → next.problems ≠ [])
    (own : Settled composition before next.site.tables entry ∨ next.problems ≠ [] ∧
      next.site.tables.buckets.byBackingResource entry.resourceId =
        before.buckets.byBackingResource entry.resourceId)
    (verdict : KeepsHosts before document →
      (next.problems = [] ↔ state.problems = [] ∧ Accepts composition moment before entry)) :
    Progress composition moment document before (behind ++ [entry]) next where
  reservations := reservations.trans progress.reservations
  debits := debits.trans progress.debits
  untouched resource others := by
    rw [elsewhere resource (others entry (by simp)).symm]
    exact progress.untouched resource fun other met => others other (List.mem_append_left _ met)
  touched other met := by
    rcases List.mem_append.mp met with passed | isEntry
    · rw [Settled, elsewhere other.resourceId (fresh other passed)]
      exact (progress.touched other passed).imp_right (And.imp_left reported)
    · rwa [List.mem_singleton.mp isEntry]
  verdict keeps := by
    rw [verdict keeps, progress.verdict keeps, List.forall_mem_append, List.forall_mem_singleton]

theorem step (progress : Progress composition moment document before behind state)
    (listed : entry ∈ document) (within : behind ⊆ document)
    (fresh : ∀ other ∈ behind, other.resourceId ≠ entry.resourceId)
    (apart : ∀ other ∈ behind, ∀ host, other.hostId = some host → entry.hostId ≠ some host)
    (done : reconcileEntry composition moment newIds index entry state = .ok next) :
    Progress composition moment document before (behind ++ [entry]) next := by
  have found := progress.untouched _ fresh
  have change : declarationChange composition state.site.tables entry =
      declarationChange composition before entry := by
    rw [declarationChange, declarationChange, found]
  unfold reconcileEntry at done
  simp only [change] at done
  split at done
  next unchanged =>
    cases done
    refine progress.extend rfl rfl (fun _ _ => rfl) fresh id ?_ fun _ => ?_
    · exact .inl ((if_pos unchanged).mpr found)
    · exact (and_iff_left (.inl unchanged)).symm
  next changed =>
  have accepts : KeepsHosts before document →
      (refusedDeclaration moment state.site.tables entry = none ↔
        Accepts composition moment before entry) := fun keeps =>
    (progress.refused_iff keeps listed within fresh apart).trans (or_iff_right changed).symm
  split at done
  next result site registered =>
    cases done
    obtain ⟨accepted, reservations, debits, row, declares, lookup⟩ :=
      registerDeclaration_ok registered
    refine progress.extend reservations debits (fun resource differs => ?_) fresh id ?_
      fun keeps => ?_
    · exact (lookup resource).trans (if_neg differs)
    · exact .inl ((if_neg changed).mpr ⟨row, declares, (lookup _).trans (if_pos rfl)⟩)
    · exact (and_iff_left ((accepts keeps).mp accepted)).symm
  next raised registered =>
  split at done
  next problem reported =>
    cases done
    refine progress.extend rfl rfl (fun _ _ => rfl) fresh (by simp) (.inr ⟨by simp, found⟩)
      fun keeps => iff_of_false (by simp) fun all => ?_
    exact registerDeclaration_refused registered reported ((accepts keeps).mpr all.2)
  next => cases done

end Progress

/-- A run over the entries ahead has done all of the document's. -/
theorem reconcileEntries_progress (split : behind ++ rest = document)
    (ids : (document.map CapacityDeclaration.resourceId).Nodup)
    (hosts : (document.filterMap CapacityDeclaration.hostId).Nodup)
    (progress : Progress composition moment document before behind state)
    (done : reconcileEntries composition moment newIds index rest state = .ok next) :
    Progress composition moment document before document next := by
  induction rest generalizing behind index state with
  | nil =>
    cases done
    rw [List.append_nil] at split
    rwa [split] at progress
  | cons entry rest ih =>
    obtain ⟨middle, taken, later⟩ := bind_eq_ok.mp done
    refine ih (by rw [List.append_assoc, List.singleton_append, split])
      (progress.step ?_ ?_ ?_ ?_ taken) later
    · simp [← split]
    · exact fun other passed => split ▸ List.mem_append_left _ passed
    · rw [← split, List.map_append, List.nodup_append] at ids
      exact fun other passed => ids.2.2 _ (List.mem_map_of_mem passed) _ (by simp)
    · rw [← split, List.filterMap_append, List.nodup_append] at hosts
      intro other passed host carries same
      exact hosts.2.2 host (List.mem_filterMap.mpr ⟨other, passed, carries⟩) host
        (List.mem_filterMap.mpr ⟨entry, List.mem_cons_self, same⟩) rfl

theorem reconcileDefinitions_progress {document : DefinitionsDocument composition.arithmetic}
    {site : SiteState σ}
    (done : reconcileDefinitions composition moment newIds document site = .ok next) :
    Progress composition moment document.declarations site.tables document.declarations next := by
  refine reconcileEntries_progress (List.nil_append _) document.ids_distinct
    document.hosts_distinct ?_ done
  exact ⟨rfl, rfl, fun _ _ => rfl, nofun, fun _ => iff_of_true rfl nofun⟩

theorem reconcileEntries_unchanged {entries : List CapacityDeclaration} (all : ∀ entry ∈ entries,
      declarationChange composition state.site.tables entry = .unchanged) :
    reconcileEntries composition moment newIds index entries state = .ok { state with
      diff := { state.diff with
        unchanged := state.diff.unchanged ++ entries.map CapacityDeclaration.resourceId } } := by
  induction entries generalizing index state with
  | nil => simp [reconcileEntries]
  | cons entry rest ih =>
    obtain ⟨first, later⟩ := List.forall_mem_cons.mp all
    rw [reconcileEntries, reconcileEntry]
    simp only [first, if_true]
    change reconcileEntries composition moment newIds (index + 1) rest
      { state with diff := state.diff.append .unchanged entry.resourceId } = _
    refine (ih ?_).trans ?_
    · exact later
    · simp [DefinitionsDiff.append]

/-! ## The law -/

/-- An accepted document applied again stores and announces nothing. Two orders of one document
that are both accepted store the same, and both are or neither is where no entry names a host
that is stored for another entry's resource. -/
structure ReconcilesLawfully (composition : Composition σ) (moment : Moment) (site : SiteState σ) :
    Prop where
  again : ∀ document newIds outcome,
    reconcileDefinitions composition moment newIds document site = .ok outcome →
    outcome.problems = [] → (∀ declaration ∈ document.declarations,
      ∀ item ∈ declaration.attributes, item.2.pyEq item.2 = true) →
    ∀ later laterIds, reconcileDefinitions composition later laterIds document outcome.site =
      .ok ⟨outcome.site, ⟨[], [], document.declarations.map CapacityDeclaration.resourceId⟩, []⟩
  ordered : ∀ document document' newIds newIds' outcome outcome',
    document.declarations.Perm document'.declarations →
    reconcileDefinitions composition moment newIds document site = .ok outcome →
    reconcileDefinitions composition moment newIds' document' site = .ok outcome' →
    (KeepsHosts site.tables document.declarations →
      (outcome.problems = [] ↔ outcome'.problems = [])) ∧
    (outcome.problems = [] → outcome'.problems = [] → ∀ resource,
      (outcome.site.tables.buckets.byBackingResource resource).map declaredColumns =
        (outcome'.site.tables.buckets.byBackingResource resource).map declaredColumns)

theorem Progress.settled (progress : Progress composition moment document before behind state)
    (accepted : state.problems = []) (passed : entry ∈ behind) :
    Settled composition before state.site.tables entry :=
  (progress.touched entry passed).resolve_right fun refused => refused.1 accepted

theorem Settled.unchanged {after : LedgerTables} (settled : Settled composition before after entry)
    (spelled : ∀ item ∈ entry.capacity, serialize composition.arithmetic item.2 = item.2)
    (equal : ∀ item ∈ entry.attributes, item.2.pyEq item.2 = true) :
    declarationChange composition after entry = .unchanged := by
  unfold Settled at settled
  split at settled
  next unchanged => rwa [declarationChange, settled]
  next changed =>
    obtain ⟨row, declares, stored⟩ := settled
    rw [declarationChange, stored]
    exact if_pos (declares.stores spelled equal)

theorem Settled.same {after after' : LedgerTables} (first : Settled composition before after entry)
    (second : Settled composition before after' entry) :
    (after.buckets.byBackingResource entry.resourceId).map declaredColumns =
      (after'.buckets.byBackingResource entry.resourceId).map declaredColumns := by
  unfold Settled at first second
  split at first
  next unchanged =>
    rw [if_pos unchanged] at second
    rw [first, second]
  next changed =>
    rw [if_neg changed] at second
    obtain ⟨row, declares, stored⟩ := first
    obtain ⟨row', declares', stored'⟩ := second
    rw [stored, stored', Option.map_some, Option.map_some, declares.columns declares']

end ComputeMarket.Site
