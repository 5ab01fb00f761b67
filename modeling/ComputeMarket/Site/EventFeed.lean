import ComputeMarket.Site.Accounts

/-!
# The event feed

`feed` is the sum of the signed deltas that a resource's events carry in a dimension.
`FeedExact` says that it is what the resource has free: its declared total less what its
held reservations are debited for. A reader that pages through `events_after` from the
start computes the same sum (`readFeed_eq`).

Every operation announces exactly what it moves, but for the sweep: the event of a lapsed
hold carries no quantities. The feed is exact over the runs in which nothing lapses
(`LapsesNothing`): `feedExact_of_no_lapse`.
-/

namespace ComputeMarket.Site

def CapacityEvent.delta (event : CapacityEvent) (resourceId dimension : String) : ℚ :=
  if event.resourceId = some resourceId then
    Dict.getD (event.dimensions.getD Table.empty) dimension 0
  else
    0

def sumDeltas (events : List CapacityEvent) (resourceId dimension : String) : ℚ :=
  (events.map fun event => event.delta resourceId dimension).sum

def feed (tables : LedgerTables) (resourceId dimension : String) : ℚ :=
  sumDeltas tables.events resourceId dimension

@[simp] theorem sumDeltas_nil (resourceId dimension : String) :
    sumDeltas [] resourceId dimension = 0 := rfl

@[simp] theorem sumDeltas_cons (event : CapacityEvent) (rest : List CapacityEvent)
    (resourceId dimension : String) :
    sumDeltas (event :: rest) resourceId dimension =
      event.delta resourceId dimension + sumDeltas rest resourceId dimension := rfl

@[simp] theorem sumDeltas_append (first second : List CapacityEvent)
    (resourceId dimension : String) :
    sumDeltas (first ++ second) resourceId dimension =
      sumDeltas first resourceId dimension + sumDeltas second resourceId dimension := by
  simp [sumDeltas]

@[simp] theorem CapacityEvent.delta_unquantified (kind : EventKind) (resource : Option String)
    (resourceId dimension : String) :
    CapacityEvent.delta ⟨kind, resource, none⟩ resourceId dimension = 0 := by
  unfold CapacityEvent.delta
  split
  · rfl
  · rfl

/-! ## Reading the feed -/

def versioned (tables : LedgerTables) : List (CapacityEvent × ℕ) := tables.events.zipIdx 1

/-- `events_after`: a page of the events newer than a version, in order, and the latest
version. A negative limit is none. -/
def eventsAfter (tables : LedgerTables) (afterVersion limit : ℤ) : List (CapacityEvent × ℕ) × ℕ :=
  let newer := (versioned tables).filter fun row => afterVersion < row.2
  (if limit < 0 then newer else newer.take limit.toNat, tables.events.length)

structure FeedReader where
  version : ℕ
  free : String → String → ℚ

def poll (tables : LedgerTables) (limit : ℕ) (reader : FeedReader) : FeedReader :=
  let page := (eventsAfter tables reader.version limit).1
  { version := (page.getLast?.map Prod.snd).getD reader.version
    free := fun resourceId dimension =>
      reader.free resourceId dimension + sumDeltas (page.map Prod.fst) resourceId dimension }

def readFeed (tables : LedgerTables) (limit polls : ℕ) : FeedReader :=
  (poll tables limit)^[polls] ⟨0, fun _ _ => 0⟩

theorem filter_zipIdx (events : List CapacityEvent) (start skipped : ℕ) :
    (events.zipIdx start).filter (fun row => start + skipped ≤ row.2) =
      (events.drop skipped).zipIdx (start + skipped) := by
  induction events generalizing start skipped with
  | nil => simp
  | cons event rest ih =>
    cases skipped with
    | zero =>
      have all : ∀ row ∈ (event :: rest).zipIdx start, (start ≤ row.2) := by
        intro row member
        exact (List.mem_zipIdx member).1
      simpa using all
    | succ skipped =>
      have later := ih (start + 1) skipped
      have shifted : start + 1 + skipped = start + (skipped + 1) := by omega
      rw [shifted] at later
      simp [List.zipIdx_cons, later]

theorem take_zipIdx (events : List CapacityEvent) (start limit : ℕ) :
    (events.zipIdx start).take limit = (events.take limit).zipIdx start := by
  induction events generalizing start limit with
  | nil => simp
  | cons event rest ih =>
    cases limit with
    | zero => rfl
    | succ limit => simp [List.zipIdx_cons, ih]

theorem eventsAfter_page (tables : LedgerTables) (version limit : ℕ) :
    (eventsAfter tables version limit).1 =
      ((tables.events.drop version).take limit).zipIdx (1 + version) := by
  have newer : (versioned tables).filter (fun row => (version : ℤ) < row.2) =
      (tables.events.drop version).zipIdx (1 + version) := by
    rw [← filter_zipIdx]
    refine List.filter_congr fun row _ => ?_
    simp only [decide_eq_decide]
    omega
  unfold eventsAfter
  rw [newer, ← take_zipIdx]
  simp

theorem poll_version (tables : LedgerTables) (limit : ℕ) {reader : FeedReader}
    (within : reader.version ≤ tables.events.length) :
    (poll tables limit reader).version = min (reader.version + limit) tables.events.length := by
  have count : ((tables.events.drop reader.version).take limit).length =
      min limit (tables.events.length - reader.version) := by
    rw [List.length_take, List.length_drop]
  unfold poll
  simp only [eventsAfter_page, List.getLast?_zipIdx]
  cases last : ((tables.events.drop reader.version).take limit).getLast? with
  | none =>
    rw [List.getLast?_eq_none_iff.mp last, List.length_nil] at count
    simp only [Option.map_none, Option.getD_none]
    omega
  | some event =>
    have nonempty : 0 < ((tables.events.drop reader.version).take limit).length := by
      refine List.length_pos_iff.mpr fun empty => ?_
      rw [empty] at last
      cases last
    simp only [Option.map_some, Option.getD_some]
    omega

theorem poll_free (tables : LedgerTables) (limit : ℕ) {reader : FeedReader}
    (free : reader.free = sumDeltas (tables.events.take reader.version)) :
    (poll tables limit reader).free = sumDeltas (tables.events.take (reader.version + limit)) := by
  funext resourceId dimension
  simp only [poll, eventsAfter_page, List.zipIdx_map_fst]
  rw [free, List.take_add, sumDeltas_append]

theorem readFeed_spec (tables : LedgerTables) (limit polls : ℕ) :
    (readFeed tables limit polls).version = min (polls * limit) tables.events.length ∧
      (readFeed tables limit polls).free = sumDeltas (tables.events.take (polls * limit)) := by
  induction polls with
  | zero =>
    refine ⟨by simp [readFeed], ?_⟩
    funext resourceId dimension
    simp [readFeed]
  | succ polls ih =>
    obtain ⟨version, free⟩ := ih
    have step : readFeed tables limit (polls + 1) =
        poll tables limit (readFeed tables limit polls) :=
      Function.iterate_succ_apply' (poll tables limit) polls _
    have within : (readFeed tables limit polls).version ≤ tables.events.length := by omega
    have readSoFar : (readFeed tables limit polls).free =
        sumDeltas (tables.events.take (readFeed tables limit polls).version) := by
      rw [free, version, List.take_eq_take_min]
    rw [step, poll_version tables limit within, poll_free tables limit readSoFar, version]
    refine ⟨?_, ?_⟩
    · rw [Nat.add_mul, Nat.one_mul]
      omega
    · rw [Nat.add_mul, Nat.one_mul]
      rcases Nat.le_total (polls * limit) tables.events.length with some_left | all_read
      · rw [Nat.min_eq_left some_left]
      · rw [Nat.min_eq_right all_read, List.take_of_length_le (by omega),
          List.take_of_length_le (by omega)]

theorem readFeed_eq (tables : LedgerTables) {limit polls : ℕ}
    (enough : tables.events.length ≤ polls * limit) :
    (readFeed tables limit polls).free = feed tables := by
  rw [(readFeed_spec tables limit polls).2, List.take_of_length_le enough]
  rfl

/-! ## The feed refines the ledger -/

variable {σ : Type*} {composition : Composition σ} {moment : Moment}

def heldTotal (tables : LedgerTables) (bucketId dimension : String) : ℚ :=
  heldDebit tables bucketId dimension fun _ => true

def freeCapacity (composition : Composition σ) (tables : LedgerTables) (bucket : CapacityBucket)
    (dimension : String) : ℚ :=
  declaredTotal composition bucket dimension - heldTotal tables bucket.capacityBucketId dimension

structure FeedExact (composition : Composition σ) (tables : LedgerTables) : Prop where
  declared : ∀ event ∈ tables.events, ∀ resourceId, event.resourceId = some resourceId →
    ∃ bucket ∈ tables.buckets, bucket.backingResourceId = resourceId
  free : ∀ bucket ∈ tables.buckets, ∀ dimension,
    feed tables bucket.backingResourceId dimension = freeCapacity composition tables bucket dimension

section Deltas

variable {amounts : AmountGrid composition.arithmetic} {tables : LedgerTables}

theorem declared_of_backingResourceId {id resourceId : String}
    (backing : tables.backingResourceId id = some resourceId) :
    ∃ bucket ∈ tables.buckets, bucket.backingResourceId = resourceId := by
  obtain ⟨bucket, backed, named⟩ := Option.map_eq_some_iff.mp backing
  obtain ⟨debit, -, stored⟩ := Option.bind_eq_some_iff.mp backed
  exact ⟨bucket, (Buckets.mem_of_get? stored).1, named⟩

theorem Accounted.debit_exact (accounted : Accounted composition amounts tables)
    {debit : CapacityReservationDebit} (member : debit ∈ tables.debits) (dimension : String) :
    (serializeDimensions composition.arithmetic debit.dimensions).getD dimension 0 =
        debit.dimensions.getD dimension 0 ∧
      (takenDimensions composition.arithmetic debit.dimensions).getD dimension 0 =
        -debit.dimensions.getD dimension 0 := by
  have on : ∀ item ∈ debit.dimensions,
      amounts.grid.On item.2 ∧ |item.2| ≤ amounts.grid.top := by
    intro item listed
    obtain ⟨isOn, positive, small⟩ := accounted.debits_on debit member item listed
    exact ⟨isOn, by rwa [abs_of_pos positive]⟩
  exact ⟨getD_serializeDimensions
    (fun item listed => amounts.serialize_eq (on item listed).1 (on item listed).2) dimension,
    amounts.getD_takenDimensions on dimension⟩

theorem delta_announced {resource bucket : CapacityBucket} (announced : resource ∈ tables.buckets)
    (declared : bucket ∈ tables.buckets) (kind : EventKind) (dimensions : Dict String ℚ)
    (dimension : String) :
    CapacityEvent.delta ⟨kind, some resource.backingResourceId, some dimensions⟩
        bucket.backingResourceId dimension =
      if resource.capacityBucketId = bucket.capacityBucketId then dimensions.getD dimension 0
      else 0 := by
  unfold CapacityEvent.delta
  by_cases same : resource.capacityBucketId = bucket.capacityBucketId
  · rw [Buckets.eq_of_id announced declared same]
    simp
  · have differs : resource.backingResourceId ≠ bucket.backingResourceId := by
      intro sameResource
      refine same ?_
      rw [tables.buckets.backing_unique resource announced bucket declared sameResource]
    simp [same, differs]

theorem Accounted.delta_freed (accounted : Accounted composition amounts tables)
    {row : CapacityReservation} (member : row ∈ tables.reservations)
    (held : row.state.held = true) {bucket : CapacityBucket} (declared : bucket ∈ tables.buckets)
    (kind : EventKind) (dimension : String) :
    CapacityEvent.delta ⟨kind, tables.backingResourceId row.capacityReservationId,
        some (serializeDimensions composition.arithmetic
          (reservationDimensions composition row))⟩ bucket.backingResourceId dimension =
      heldTerm tables bucket.capacityBucketId dimension (fun _ => true) row := by
  cases debited : tables.debits.find? row.capacityReservationId with
  | none => simp [CapacityEvent.delta, LedgerTables.backingResourceId,
      LedgerTables.bucketForReservation, heldTerm, debitedAmount, debited]
  | some debit =>
    have debitMember := (Table.find?_eq_some.mp debited).1
    obtain ⟨resource, announced, named⟩ := accounted.backed debit debitMember
    have backing : tables.backingResourceId row.capacityReservationId =
        some resource.backingResourceId := by
      have stored := Buckets.get?_of_mem announced
      rw [named] at stored
      simp [LedgerTables.backingResourceId, LedgerTables.bucketForReservation, debited, stored]
    rw [backing, delta_announced announced declared, accounted.agree row member debit debited,
      (accounted.debit_exact debitMember dimension).1, named]
    simp [heldTerm, debitedAmount, debited, held]

end Deltas

/-! ## Every change but a lapse announces what it moves -/

variable {before after tables : LedgerTables} {amounts : AmountGrid composition.arithmetic}
    {old : Dict String ℚ}

theorem FeedExact.of_balance {new : List CapacityEvent}
    (exact_before : FeedExact composition before) (buckets : after.buckets = before.buckets)
    (events : after.events = before.events ++ new)
    (declared : ∀ event ∈ new, ∀ resourceId, event.resourceId = some resourceId →
      ∃ bucket ∈ before.buckets, bucket.backingResourceId = resourceId)
    (balance : ∀ bucket ∈ before.buckets, ∀ dimension,
      sumDeltas new bucket.backingResourceId dimension +
          heldTotal after bucket.capacityBucketId dimension =
        heldTotal before bucket.capacityBucketId dimension) : FeedExact composition after := by
  refine ⟨fun event member resourceId named => ?_, fun bucket stored dimension => ?_⟩
  · rw [buckets]
    rw [events] at member
    rcases List.mem_append.mp member with earlier | isNew
    · exact exact_before.declared event earlier resourceId named
    · exact declared event isNew resourceId named
  · rw [buckets] at stored
    have free := exact_before.free bucket stored dimension
    have balanced := balance bucket stored dimension
    unfold feed freeCapacity at free ⊢
    rw [events, sumDeltas_append]
    linarith

theorem FeedExact.put_kept {old new : CapacityReservation} {events : List CapacityEvent}
    (exact_before : FeedExact composition before) (member : old ∈ before.reservations)
    (written : after.reservations = before.reservations.put new)
    (same : old.capacityReservationId = new.capacityReservationId)
    (held : new.state.held = old.state.held) (debits : after.debits = before.debits)
    (buckets : after.buckets = before.buckets) (announced : after.events = before.events ++ events)
    (unquantified : ∀ event ∈ events, ∃ kind id,
      event = ⟨kind, before.backingResourceId id, none⟩) : FeedExact composition after := by
  refine exact_before.of_balance buckets announced (fun event listed resourceId named => ?_)
    fun bucket declared dimension => ?_
  · obtain ⟨kind, id, rfl⟩ := unquantified event listed
    exact declared_of_backingResourceId named
  · have silent : sumDeltas events bucket.backingResourceId dimension = 0 := by
      refine List.sum_eq_zero fun part listed => ?_
      obtain ⟨event, eventListed, rfl⟩ := List.mem_map.mp listed
      obtain ⟨kind, id, rfl⟩ := unquantified event eventListed
      exact CapacityEvent.delta_unquantified _ _ _ _
    have part : heldTerm before bucket.capacityBucketId dimension (fun _ => true) new =
        heldTerm before bucket.capacityBucketId dimension (fun _ => true) old := by
      simp [heldTerm, debitedAmount, held, same]
    have kept := heldDebit_kept bucket.capacityBucketId dimension (fun _ => true) member written same
      debits part
    rw [silent, zero_add]
    exact kept

theorem Accounted.replaced_on (accounted : Accounted composition amounts tables)
    {bucket : CapacityBucket}
    (stored : (bucket ∈ tables.buckets ∧ old = resourceCapacity composition bucket) ∨
      (tables.buckets.byBackingResource bucket.backingResourceId = none ∧ old = Table.empty))
    (dimension : String) :
    amounts.grid.On (old.getD dimension 0) ∧ 0 ≤ old.getD dimension 0 ∧
      old.getD dimension 0 ≤ amounts.grid.top := by
  rcases stored with ⟨declared, rfl⟩ | ⟨-, rfl⟩
  · exact accounted.totals_on bucket declared dimension
  · exact ⟨Grid.on_zero, le_rfl, Grid.top_nonneg⟩

theorem Accounted.getD_declarationDelta (accounted : Accounted composition amounts tables)
    {bucket : CapacityBucket} {declaration : CapacityDeclaration}
    (stored : (bucket ∈ tables.buckets ∧ old = resourceCapacity composition bucket) ∨
      (tables.buckets.byBackingResource bucket.backingResourceId = none ∧ old = Table.empty))
    (on : DeclarationOn amounts declaration) (dimension : String) :
    (serializeDimensions composition.arithmetic
      (declarationDelta composition old declaration.capacity)).getD dimension 0 =
        declaration.capacity.getD dimension 0 - old.getD dimension 0 := by
  obtain ⟨newOn, newNonneg, newSmall⟩ := on.total dimension
  obtain ⟨oldOn, oldNonneg, oldSmall⟩ := accounted.replaced_on stored dimension
  have differenceOn := newOn.sub oldOn
  have small : |declaration.capacity.getD dimension 0 - old.getD dimension 0| ≤
      amounts.grid.top := abs_le.mpr ⟨by linarith, by linarith⟩
  rw [Dict.getD, get?_serializeDimensions, declarationDelta, Dict.get?_ofKeys]
  split
  · rw [Option.map_some, Option.getD_some, Grid.round_eq differenceOn small]
    exact amounts.serialize_eq differenceOn small
  next unlisted =>
  rw [List.mem_append, not_or] at unlisted
  rw [Dict.getD_of_none (Dict.get?_eq_none.mpr unlisted.1),
    Dict.getD_of_none (Dict.get?_eq_none.mpr unlisted.2), Option.map_none, Option.getD_none,
    sub_zero]

theorem FeedExact.replaced (accounted : Accounted composition amounts tables)
    (exact_before : FeedExact composition tables) {bucket : CapacityBucket}
    (own : ∀ other ∈ tables.buckets, other.capacityBucketId = bucket.capacityBucketId ↔
      other.backingResourceId = bucket.backingResourceId)
    (stored : (bucket ∈ tables.buckets ∧ old = resourceCapacity composition bucket) ∨
      (tables.buckets.byBackingResource bucket.backingResourceId = none ∧ old = Table.empty))
    (dimension : String) :
    feed tables bucket.backingResourceId dimension =
      old.getD dimension 0 - heldTotal tables bucket.capacityBucketId dimension := by
  rcases stored with ⟨declared, rfl⟩ | ⟨absent, rfl⟩
  · exact exact_before.free bucket declared dimension
  · have unnamed : ∀ other ∈ tables.buckets,
        other.backingResourceId ≠ bucket.backingResourceId := by
      intro other member same
      have found := Buckets.byBackingResource_of_mem member
      rw [same, absent] at found
      cases found
    have silent : feed tables bucket.backingResourceId dimension = 0 := by
      refine List.sum_eq_zero fun part listed => ?_
      obtain ⟨event, member, rfl⟩ := List.mem_map.mp listed
      unfold CapacityEvent.delta
      rw [if_neg]
      intro named
      obtain ⟨other, declared, same⟩ := exact_before.declared event member _ named
      exact unnamed other declared same
    have unheld : heldTotal tables bucket.capacityBucketId dimension = 0 := by
      refine List.sum_eq_zero fun part listed => ?_
      obtain ⟨row, -, rfl⟩ := List.mem_map.mp listed
      have undebited : debitedAmount tables bucket.capacityBucketId dimension row = 0 := by
        unfold debitedAmount
        split
        · next debit found =>
          rw [if_neg]
          intro here
          obtain ⟨other, declared, named⟩ :=
            accounted.backed debit (Table.find?_eq_some.mp found).1
          exact unnamed other declared ((own other declared).mp (named.trans here))
        · rfl
      simp [heldTerm, undebited]
    rw [silent, unheld, sub_zero]
    rfl

theorem FeedExact.declare {bucket : CapacityBucket} {kind : EventKind}
    {declaration : CapacityDeclaration} (own : ∀ other ∈ tables.buckets,
      other.capacityBucketId =
          (writeDeclaration composition moment bucket declaration).capacityBucketId ↔
        other.backingResourceId =
          (writeDeclaration composition moment bucket declaration).backingResourceId)
    (stored : (bucket ∈ tables.buckets ∧ old = resourceCapacity composition bucket) ∨
      (tables.buckets.byBackingResource bucket.backingResourceId = none ∧ old = Table.empty))
    (on : DeclarationOn amounts declaration) (accounted : Accounted composition amounts tables)
    (exact_before : FeedExact composition tables) :
    FeedExact composition
      { tables with
        buckets := tables.buckets.put (writeDeclaration composition moment bucket declaration) own
        events := tables.events ++ [⟨kind, some bucket.backingResourceId,
          some (serializeDimensions composition.arithmetic
            (declarationDelta composition old declaration.capacity))⟩] } := by
  obtain ⟨sameId, sameResource⟩ := writeDeclaration_ids composition moment bucket declaration
  have written : writeDeclaration composition moment bucket declaration ∈
      tables.buckets.put (writeDeclaration composition moment bucket declaration) own :=
    Table.mem_put.mpr (.inl rfl)
  refine ⟨fun event member resourceId named => ?_, fun other otherStored dimension => ?_⟩
  · rcases List.mem_append.mp member with earlier | isNew
    · obtain ⟨other, declared, backing⟩ := exact_before.declared event earlier resourceId named
      by_cases replaced : other.capacityBucketId =
          (writeDeclaration composition moment bucket declaration).capacityBucketId
      · exact ⟨_, written, ((own other declared).mp replaced).symm.trans backing⟩
      · exact ⟨other, Table.mem_put.mpr (.inr ⟨declared, replaced⟩), backing⟩
    · rw [List.mem_singleton.mp isNew] at named
      exact ⟨_, written, sameResource.trans (Option.some.inj named)⟩
  · unfold feed freeCapacity
    rw [sumDeltas_append, sumDeltas_cons, sumDeltas_nil, add_zero]
    rcases Table.mem_put.mp otherStored with rfl | ⟨declared, differs⟩
    · have before := exact_before.replaced accounted (sameId ▸ sameResource ▸ own) stored dimension
      have delta := accounted.getD_declarationDelta stored on dimension
      rw [declaredTotal_written on, sameId, sameResource]
      have added : CapacityEvent.delta ⟨kind, some bucket.backingResourceId,
          some (serializeDimensions composition.arithmetic
            (declarationDelta composition old declaration.capacity))⟩ bucket.backingResourceId
          dimension = declaration.capacity.getD dimension 0 - old.getD dimension 0 := by
        unfold CapacityEvent.delta
        rw [if_pos rfl]
        exact delta
      unfold feed at before
      rw [added, before]
      change _ = _ - heldTotal tables bucket.capacityBucketId dimension
      ring
    · have silent : CapacityEvent.delta ⟨kind, some bucket.backingResourceId,
          some (serializeDimensions composition.arithmetic
            (declarationDelta composition old declaration.capacity))⟩ other.backingResourceId
          dimension = 0 := by
        unfold CapacityEvent.delta
        rw [if_neg]
        intro same
        refine differs ((own other declared).mpr ?_)
        rw [sameResource]
        exact (Option.some.inj same).symm
      rw [silent, add_zero]
      exact exact_before.free other declared dimension

theorem Change.feedExact {kind : ChangeKind} (change : Change composition moment kind before after)
    (announces : kind ≠ .free .lapsed) (on : kind.OnGrid amounts moment)
    (accounted : Accounted composition amounts before)
    (exact_before : FeedExact composition before) :
    FeedExact composition after := by
  cases change with
  | free cause old reason message ended member allowed _ =>
    have quantified : freedDimensions composition cause old =
        some (serializeDimensions composition.arithmetic
          (reservationDimensions composition old)) := by
      unfold freedDimensions
      rw [if_neg fun lapsed => announces (congrArg ChangeKind.free lapsed)]
    refine exact_before.of_balance rfl rfl (fun event listed resourceId named => ?_)
      fun bucket declared dimension => ?_
    · rw [List.mem_singleton.mp listed] at named
      exact declared_of_backingResourceId named
    · have delta := accounted.delta_freed member (FreeCause.held_of_from allowed) declared
        .released dimension
      rw [sumDeltas_cons, sumDeltas_nil, quantified, delta, add_zero, add_comm]
      exact heldDebit_freed bucket.capacityBucketId dimension (fun _ => true) member rfl rfl
        (FreeCause.target_not_held cause) rfl
  | accept superseding request requested mode window attributes resource available parsed found
      fresh =>
      have resourceDeclared := (findCandidate_ok composition found).1
      have positive := requestedDimensions_pos _ (parseRequest_ok parsed)
      have asked_on := on requested mode window parsed
      refine exact_before.of_balance rfl rfl (fun event listed resourceId named => ?_)
        fun bucket declared dimension => ?_
      · rw [List.mem_singleton.mp listed] at named
        exact ⟨resource, resourceDeclared, Option.some.inj named⟩
      · have taken := amounts.getD_takenDimensions (fun item asked => ⟨asked_on item asked, by
          rw [abs_of_pos (positive item asked)]
          exact accounted.le_top_of_found found positive asked⟩) dimension
        have added : heldTotal (admittedTables composition moment before (admittedReservation
            composition moment request requested mode window attributes resource) requested
            resource) bucket.capacityBucketId dimension = _ :=
          heldDebit_accepted bucket.capacityBucketId dimension (fun _ => true) rfl rfl fresh
        rw [accounted.debited_of_found found positive asked_on] at added
        rw [sumDeltas_cons, sumDeltas_nil, delta_announced resourceDeclared declared, taken, added]
        unfold heldTotal
        by_cases here : resource.capacityBucketId = bucket.capacityBucketId
        · simp only [here, if_true, true_and]
          ring
        · simp [here]
  | annotate old new member same =>
    exact exact_before.put_kept member rfl same.id.symm (by rw [same.state]) rfl rfl
      (List.append_nil _).symm (fun _ listed => absurd listed List.not_mem_nil)
  | rebind old debit destination member held debited destinationDeclared room =>
    have debitMember := (Table.find?_eq_some.mp debited).1
    refine exact_before.of_balance rfl rfl (fun event listed resourceId named => ?_)
      fun bucket declared dimension => ?_
    · rcases List.mem_pair.mp listed with rfl | rfl
      · exact declared_of_backingResourceId named
      · exact ⟨destination, destinationDeclared, Option.some.inj named⟩
    · have moved := heldDebit_rebound composition bucket.capacityBucketId dimension
        (fun _ => true) destination member held debited rfl
      rw [sumDeltas_cons, sumDeltas_cons, sumDeltas_nil, accounted.delta_freed member held declared,
        delta_announced destinationDeclared declared, accounted.agree old member debit debited,
        (accounted.debit_exact debitMember dimension).2]
      unfold heldTotal
      by_cases here : destination.capacityBucketId = bucket.capacityBucketId
      · simp only [here, if_true, true_and] at moved ⊢
        linarith
      · simp only [here, if_false, and_false] at moved ⊢
        linarith
  | lease request old member reserved =>
    refine exact_before.put_kept member rfl rfl (by rw [reserved]; rfl) rfl rfl rfl ?_
    exact fun event listed => ⟨_, _, List.mem_singleton.mp listed⟩
  | correlate request old member leased =>
    exact exact_before.put_kept member rfl rfl rfl rfl rfl
      (List.append_nil _).symm (fun _ listed => absurd listed List.not_mem_nil)
  | truncate old newEnd member leased earlier =>
    refine exact_before.put_kept member rfl rfl rfl rfl rfl rfl ?_
    exact fun event listed => ⟨_, _, List.mem_singleton.mp listed⟩
  | advance stage old new ended member allowed same reached =>
    have held : new.state.held = old.state.held := by
      rw [reached, stage.target_held, Advance.held_of_from allowed]
    exact exact_before.put_kept member rfl same.id.symm held rfl rfl
      (List.append_nil _).symm (fun _ listed => absurd listed List.not_mem_nil)
  | declare bucket old eventKind declaration own accepted names stored =>
    exact exact_before.declare own stored on accounted

/-! ## Runs in which nothing lapses -/

variable {site : SiteState σ} {op : LedgerOp}

/-- An operation that sweeps finds no expired hold that the release guard would let it reclaim. -/
def LapsesNothing (composition : Composition σ) (site : SiteState σ) (now : Instant)
    (op : LedgerOp) : Prop :=
  op.sweeps = true → ∀ row ∈ deadlinedHolds site.tables, holdExpired now row = true →
    releasePermitted composition site row.capacityReservationId = none

theorem lapseAll_of_refused {rows : List CapacityReservation}
    (refused : ∀ row ∈ rows, holdExpired moment.now row = true →
      releasePermitted composition site row.capacityReservationId = none) :
    lapseAll composition moment rows site = .ok site := by
  induction rows with
  | nil => rfl
  | cons row rest ih =>
    have later := ih fun other member => refused other (List.mem_cons_of_mem _ member)
    unfold lapseAll
    by_cases expired : holdExpired moment.now row = true
    · simp only [expired, refused row List.mem_cons_self expired]
      exact later
    · simpa [expired] using later

theorem SweptTo.eq_of_lapsesNothing {middle : SiteState σ}
    (sweptTo : SweptTo composition moment op site middle)
    (nothing : LapsesNothing composition site moment.now op) : middle = site := by
  rcases sweptTo with same | ⟨sweeps, sweep⟩
  · exact same
  · have kept : expireStaleHolds composition moment site = .ok site :=
      lapseAll_of_refused (nothing sweeps)
    rw [kept] at sweep
    cases sweep
    rfl

theorem LedgerOp.kinds_ne_lapse {kind : ChangeKind} (own : op.kinds kind) :
    kind ≠ .free .lapsed := by
  rintro rfl
  cases op with
  | release request =>
    have cause := ChangeKind.free.inj own
    unfold releaseCause at cause
    split at cause <;> cases cause
  | _ => simp [LedgerOp.kinds] at own

theorem perform_feedExact (nothing : LapsesNothing composition site moment.now op)
    (on : op.OnGrid amounts moment) (accounted : Accounted composition amounts site.tables)
    (exact_before : FeedExact composition site.tables) :
    FeedExact composition (perform composition moment op site).2.tables := by
  obtain ⟨middle, sweptTo, path⟩ := perform_path composition moment op site
  rw [sweptTo.eq_of_lapsesNothing nothing] at path
  have both := path.preserves (P := fun tables =>
    Accounted composition amounts tables ∧ FeedExact composition tables)
    (fun kind before after own change kept => ?_) ⟨accounted, exact_before⟩
  · exact both.2
  · exact ⟨change.accounted (on.kinds own) kept.1,
      change.feedExact (LedgerOp.kinds_ne_lapse own) (on.kinds own) kept.1 kept.2⟩

structure FeedRefines (composition : Composition σ) (tables : LedgerTables) : Prop where
  free : ∀ bucket ∈ tables.buckets, ∀ dimension,
    feed tables bucket.backingResourceId dimension = freeCapacity composition tables bucket dimension
  read : ∀ limit polls, tables.events.length ≤ polls * limit →
    ∀ bucket ∈ tables.buckets, ∀ dimension,
      (readFeed tables limit polls).free bucket.backingResourceId dimension =
        freeCapacity composition tables bucket dimension

theorem FeedExact.refines (exact_here : FeedExact composition tables) :
    FeedRefines composition tables where
  free := exact_here.free
  read := fun limit polls enough bucket declared dimension => by
    rw [readFeed_eq tables enough]
    exact exact_here.free bucket declared dimension

/-- In a run from a fresh site, on grid amounts, in which nothing lapses, the feed refines the
ledger after every operation. -/
theorem feedRefines_of_no_lapse (composition : Composition σ)
    (amounts : AmountGrid composition.arithmetic) (start : SiteState σ)
    (fresh : start.tables = LedgerTables.empty) (calls : List LedgerCall)
    (regular : Admits (step composition)
      (fun site call => LapsesNothing composition site call.moment.now call.op ∧
        call.op.OnGrid amounts call.moment) start calls) :
    Throughout (step composition) (fun site => FeedRefines composition site.tables) start calls := by
  have accounted : Accounted composition amounts start.tables := by
    rw [fresh]
    exact .of_unreserved rfl rfl fun bucket member => absurd member Table.not_mem_empty
  have exact_start : FeedExact composition start.tables := by
    rw [fresh]
    exact ⟨fun event member => absurd member List.not_mem_nil,
      fun bucket member => absurd member Table.not_mem_empty⟩
  have both : Throughout (step composition) (fun site =>
      Accounted composition amounts site.tables ∧ FeedExact composition site.tables) start calls :=
    Throughout.of_admits (P := fun site : SiteState σ =>
      Accounted composition amounts site.tables ∧ FeedExact composition site.tables)
      (fun _ _ kept ok => ⟨perform_accounted ok.2 kept.1,
        perform_feedExact ok.1 ok.2 kept.1 kept.2⟩) ⟨accounted, exact_start⟩ regular
  exact both.mono fun _ kept => kept.2.refines

def shortHold : ReserveRequest := { ReserveRequest.ofUnits 3 none none none with ttl := some 1000000 }

def expiredHold : List LedgerCall :=
  [⟨.vmOnly 0 "bucket", .registerDeclaration (.eightUnits "gpu-a" Table.empty noAttributes)⟩,
   ⟨.vmOnly 1 "first", .reserve shortHold⟩,
   ⟨.vmOnly 2000000 "", .sweep⟩]

/-- The lapse gives three units back, of which the feed says nothing. -/
theorem lapse_leaves_feed :
    ¬ FeedRefines (.standalone .exact) (standaloneRun expiredHold).tables := by
  intro refines
  have behind : ∃ bucket ∈ (standaloneRun expiredHold).tables.buckets.table.rows,
      feed (standaloneRun expiredHold).tables bucket.backingResourceId "units" = 5 ∧
        freeCapacity (.standalone .exact) (standaloneRun expiredHold).tables bucket "units" = 8 := by
    decide +kernel
  obtain ⟨bucket, declared, fed, free⟩ := behind
  have same := refines.free bucket declared "units"
  rw [fed, free] at same
  exact absurd same (by norm_num)

def releasedHold : List LedgerCall :=
  [⟨.vmOnly 0 "bucket", .registerDeclaration (.eightUnits "gpu-a" Table.empty noAttributes)⟩,
   ⟨.vmOnly 1 "first", .reserve shortHold⟩,
   ⟨.vmOnly 2 "second", .resizeReservation "first" shortHold⟩,
   ⟨.vmOnly 3 "", .sweep⟩,
   ⟨.vmOnly 4 "", .release ⟨some "second", none, false, none, none, .empty⟩⟩]

theorem feedRefines_of_no_lapse_example :
    Throughout (step (.standalone .exact))
      (fun site => FeedRefines (.standalone .exact) site.tables)
      (⟨LedgerTables.empty, ()⟩ : SiteState Unit) releasedHold := by
  have live : ∀ count ∈ List.range 5, ∀ row ∈
      deadlinedHolds (standaloneRun (releasedHold.take count)).tables,
      holdExpired count row = false := by
    decide +kernel
  have nothing (count : ℕ) (early : count < 5) (op : LedgerOp) :
      LapsesNothing (.standalone .exact) (standaloneRun (releasedHold.take count)) count op := by
    intro _ row member expired
    rw [live count (List.mem_range.mpr early) row member] at expired
    cases expired
  refine feedRefines_of_no_lapse _ standaloneIntegers _ rfl _ ⟨⟨nothing 0 (by decide) _,
    declarationOn_integers (by decide +kernel)⟩, ⟨nothing 1 (by decide) _,
    requestsOn_integers (by decide +kernel)⟩, ⟨nothing 2 (by decide) _,
    requestsOn_integers (by decide +kernel)⟩, ⟨nothing 3 (by decide) _, trivial⟩,
    ⟨nothing 4 (by decide) _, trivial⟩, trivial⟩

end ComputeMarket.Site
