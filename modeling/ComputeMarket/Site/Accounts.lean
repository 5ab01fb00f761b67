import ComputeMarket.Site.Held

/-!
# Exact accounts

An `AmountGrid` names the amounts that neither the ledger's arithmetic nor its storage
rounds: integers up to the context's precision, or the multiples of another unit. `Accounted`
says that all declared and debited amounts lie on it, that debits agree with their
reservations, and that every debit names a declared bucket.

On the grid the ledger's checks are exact: what admission has checked is
`Accounted.room_of_found`, what assignment has is `Accounted.room_of_assigned`.
-/

namespace ComputeMarket.Site

variable {arithmetic : Arithmetic} {q : ℚ}

structure AmountGrid (arithmetic : Arithmetic) where
  grid : Grid arithmetic.round
  stored : ∀ k : ℤ, |k| ≤ grid.steps → serialize arithmetic (k * grid.unit) = k * grid.unit

theorem AmountGrid.serialize_eq (amounts : AmountGrid arithmetic) (on : amounts.grid.On q)
    (small : |q| ≤ amounts.grid.top) :
    serialize arithmetic q = q := by
  obtain ⟨k, rfl⟩ := on
  refine amounts.stored k ?_
  rw [abs_mul, abs_of_pos amounts.grid.unit_pos] at small
  have scaled : |(k : ℚ)| ≤ amounts.grid.steps := le_of_mul_le_mul_right small amounts.grid.unit_pos
  exact_mod_cast scaled

theorem getD_serializeDimensions {dimensions : Dict String ℚ}
    (stored : ∀ item ∈ dimensions, serialize arithmetic item.2 = item.2) (dimension : String) :
    (serializeDimensions arithmetic dimensions).getD dimension 0 =
      dimensions.getD dimension 0 := by
  unfold Dict.getD
  rw [get?_serializeDimensions]
  cases amount : dimensions.get? dimension with
  | none => rfl
  | some q => exact stored _ (Dict.get?_eq_some.mp amount)

theorem AmountGrid.getD_takenDimensions (amounts : AmountGrid arithmetic)
    {dimensions : Dict String ℚ}
    (on : ∀ item ∈ dimensions, amounts.grid.On item.2 ∧ |item.2| ≤ amounts.grid.top)
    (dimension : String) :
    (takenDimensions arithmetic dimensions).getD dimension 0 = -dimensions.getD dimension 0 := by
  have exactly : ∀ q, amounts.grid.On q → |q| ≤ amounts.grid.top →
      serialize arithmetic (arithmetic.round (-q)) = -q := by
    intro q isOn small
    rw [Grid.round_eq isOn.neg (by rwa [abs_neg])]
    exact amounts.serialize_eq isOn.neg (by rwa [abs_neg])
  unfold takenDimensions Dict.getD
  rw [get?_serializeDimensions, Dict.get?_mapValues]
  cases amount : dimensions.get? dimension with
  | none => exact neg_zero.symm
  | some q =>
    obtain ⟨isOn, small⟩ := on _ (Dict.get?_eq_some.mp amount)
    exact exactly q isOn small

/-- The integers up to a size within which the arithmetic does not round them: storage never
does. -/
def AmountGrid.integers (arithmetic : Arithmetic) (steps : ℕ)
    (exact : ∀ k : ℤ, |k| ≤ steps → arithmetic.round k = k) : AmountGrid arithmetic where
  grid :=
    { unit := 1
      steps := steps
      unit_pos := one_pos
      exact := fun k small => by rw [mul_one, exact k small] }
  stored := fun k _ => by rw [mul_one, serialize_intCast]

theorem AmountGrid.on_integers {steps : ℕ} {exact : ∀ k : ℤ, |k| ≤ steps → arithmetic.round k = k}
    (integral : q.den = 1) :
    (AmountGrid.integers arithmetic steps exact).grid.On q := by
  refine ⟨q.num, ?_⟩
  change q = q.num * 1
  rw [mul_one]
  exact (Rat.coe_int_num_of_den_eq_one integral).symm

variable {σ : Type*} {composition : Composition σ} {moment : Moment}

def declaredTotal (composition : Composition σ) (bucket : CapacityBucket) (dimension : String) :
    ℚ :=
  (resourceCapacity composition bucket).getD dimension 0

def TotalsOn (composition : Composition σ) (amounts : AmountGrid composition.arithmetic)
    (tables : LedgerTables) : Prop :=
  ∀ bucket ∈ tables.buckets, ∀ dimension,
    amounts.grid.On (declaredTotal composition bucket dimension) ∧
      0 ≤ declaredTotal composition bucket dimension ∧
      declaredTotal composition bucket dimension ≤ amounts.grid.top

theorem TotalsOn.of_items {amounts : AmountGrid composition.arithmetic} {tables : LedgerTables}
    (on : ∀ bucket ∈ tables.buckets, ∀ item ∈ resourceCapacity composition bucket,
      amounts.grid.On item.2 ∧ 0 ≤ item.2 ∧ item.2 ≤ amounts.grid.top) :
    TotalsOn composition amounts tables := by
  intro bucket declared dimension
  unfold declaredTotal
  cases amount : (resourceCapacity composition bucket).get? dimension with
  | none =>
    rw [Dict.getD_of_none amount]
    exact ⟨Grid.on_zero, le_rfl, Grid.top_nonneg⟩
  | some q =>
    rw [Dict.getD_of_some amount]
    exact on bucket declared _ (Dict.get?_eq_some.mp amount)

/-- Debits agree with their reservations and name declared buckets, and all amounts lie on the
grid. -/
structure Accounted (composition : Composition σ) (amounts : AmountGrid composition.arithmetic)
    (tables : LedgerTables) : Prop where
  agree : DebitsAgree composition tables
  backed : ∀ debit ∈ tables.debits, ∃ bucket ∈ tables.buckets,
    bucket.capacityBucketId = debit.capacityBucketId
  debits_on : ∀ debit ∈ tables.debits, ∀ item ∈ debit.dimensions,
    amounts.grid.On item.2 ∧ 0 < item.2 ∧ item.2 ≤ amounts.grid.top
  totals_on : TotalsOn composition amounts tables

namespace Accounted

variable {amounts : AmountGrid composition.arithmetic} {tables : LedgerTables}

theorem debitedAmount_nonneg (accounted : Accounted composition amounts tables)
    (bucketId dimension : String) (row : CapacityReservation) :
    0 ≤ debitedAmount tables bucketId dimension row := by
  unfold debitedAmount
  split
  · next debit found =>
    split
    · cases amount : debit.dimensions.get? dimension with
      | none => rw [Dict.getD_of_none amount]
      | some q =>
        rw [Dict.getD_of_some amount]
        have member := (Table.find?_eq_some.mp found).1
        exact (accounted.debits_on debit member _ (Dict.get?_eq_some.mp amount)).2.1.le
    · exact le_rfl
  · exact le_rfl

theorem heldTerm_nonneg (accounted : Accounted composition amounts tables)
    (bucketId dimension : String) (select : CapacityReservation → Bool)
    (row : CapacityReservation) : 0 ≤ heldTerm tables bucketId dimension select row := by
  unfold heldTerm
  split
  · exact accounted.debitedAmount_nonneg bucketId dimension row
  · exact le_rfl

theorem heldDebit_nonneg (accounted : Accounted composition amounts tables)
    (bucketId dimension : String) (select : CapacityReservation → Bool) :
    0 ≤ heldDebit tables bucketId dimension select := by
  refine List.sum_nonneg fun part member => ?_
  obtain ⟨row, -, rfl⟩ := List.mem_map.mp member
  exact accounted.heldTerm_nonneg bucketId dimension select row

theorem heldDebit_mono (accounted : Accounted composition amounts tables)
    (bucketId dimension : String) {select select' : CapacityReservation → Bool}
    (wider : ∀ row, select row = true → select' row = true) :
    heldDebit tables bucketId dimension select ≤ heldDebit tables bucketId dimension select' := by
  refine List.sum_le_sum fun row _ => ?_
  by_cases picked : select row = true
  · have also := wider row picked
    simp only [heldTerm, picked, also]
    exact le_rfl
  · have dropped : heldTerm tables bucketId dimension select row = 0 := by
      simp [heldTerm, picked]
    rw [dropped]
    exact accounted.heldTerm_nonneg bucketId dimension select' row

theorem heldAmounts_on (accounted : Accounted composition amounts tables)
    (bucketId dimension : String) (window : Window Instant) :
    ∀ q ∈ heldAmounts composition dimension (countedReservations tables bucketId window),
      amounts.grid.On q ∧ 0 ≤ q := by
  intro q member
  obtain ⟨row, counted, amount⟩ := List.mem_filterMap.mp member
  have listed := (List.mem_filter.mp counted).1
  obtain ⟨rowMember, heldHere⟩ := List.mem_filter.mp listed
  have debitedHere := (Bool.and_eq_true_iff.mp heldHere).1
  unfold LedgerTables.debitedTo at debitedHere
  cases found : tables.debits.find? row.capacityReservationId with
  | none =>
    rw [found] at debitedHere
    cases debitedHere
  | some debit =>
    have same := accounted.agree row rowMember debit found
    rw [same] at amount
    have on := accounted.debits_on debit (Table.find?_eq_some.mp found).1 _
      (Dict.get?_eq_some.mp amount)
    exact ⟨on.1, on.2.1.le⟩

theorem room (accounted : Accounted composition amounts tables) {bucket : CapacityBucket}
    (declared : bucket ∈ tables.buckets) (window : Window Instant) {dimension : String}
    {request : ℚ} (positive : 0 < request)
    (passed : request ≤ composition.arithmetic.round
      (declaredTotal composition bucket dimension -
        (heldDimensions composition tables bucket.backingResourceId window).getD dimension 0)) :
    heldDebit tables bucket.capacityBucketId dimension (countsIn window) + request ≤
      declaredTotal composition bucket dimension := by
  obtain ⟨on, nonneg, small⟩ := accounted.totals_on bucket declared dimension
  rw [getD_heldDimensions declared] at passed
  have exact_check := (Grid.room_iff composition.arithmetic.round_mono
    (accounted.heldAmounts_on bucket.capacityBucketId dimension window) on small nonneg
    positive).mp passed
  rw [sum_heldAmounts accounted.agree] at exact_check
  exact exact_check

end Accounted

/-! ## Admission -/

section Admission

variable {amounts : AmountGrid composition.arithmetic} {tables : LedgerTables} {claim : Claim}
    {requested : Dict String ℚ} {window : Window Instant} {resource : CapacityBucket}
    {available : Dict String ℚ} {dimension : String}

theorem Accounted.room_of_found (accounted : Accounted composition amounts tables)
    (found : findCandidate composition moment.environment tables claim requested window =
      .ok (some (resource, available))) (positive : ∀ item ∈ requested, 0 < item.2)
    (asked : (dimension, q) ∈ requested) :
    heldDebit tables resource.capacityBucketId dimension (countsIn window) + q ≤
      declaredTotal composition resource dimension := by
  obtain ⟨declared, roomy, -⟩ := findCandidate_ok composition found
  have fits := roomy (dimension, q) asked
  have isPositive : 0 < q := positive (dimension, q) asked
  refine accounted.room declared window isPositive ?_
  unfold availableDimensions at fits
  simp only [Dict.getD, Dict.get?_mapItems] at fits
  unfold declaredTotal
  cases total : (resourceCapacity composition resource).get? dimension with
  | none =>
    rw [total] at fits
    exact absurd isPositive (not_lt.mpr fits)
  | some amount =>
    rw [total] at fits
    rw [Dict.getD_of_some total]
    exact fits

theorem Accounted.le_top_of_found (accounted : Accounted composition amounts tables)
    (found : findCandidate composition moment.environment tables claim requested window =
      .ok (some (resource, available))) (positive : ∀ item ∈ requested, 0 < item.2)
    (asked : (dimension, q) ∈ requested) : q ≤ amounts.grid.top := by
  have fits := accounted.room_of_found found positive asked
  have nonneg := accounted.heldDebit_nonneg resource.capacityBucketId dimension (countsIn window)
  have small := (accounted.totals_on resource (findCandidate_ok composition found).1 dimension).2.2
  linarith

theorem Accounted.stored_of_found (accounted : Accounted composition amounts tables)
    (found : findCandidate composition moment.environment tables claim requested window =
      .ok (some (resource, available))) (positive : ∀ item ∈ requested, 0 < item.2)
    (on : ∀ item ∈ requested, amounts.grid.On item.2) (asked : (dimension, q) ∈ requested) :
    serialize composition.arithmetic q = q := by
  have isPositive : 0 < q := positive (dimension, q) asked
  refine amounts.serialize_eq (on (dimension, q) asked) ?_
  rw [abs_of_pos isPositive]
  exact accounted.le_top_of_found found positive asked

theorem Accounted.debited_of_found (accounted : Accounted composition amounts tables)
    (found : findCandidate composition moment.environment tables claim requested window =
      .ok (some (resource, available)))
    (positive : ∀ item ∈ requested, 0 < item.2)
    (on : ∀ item ∈ requested, amounts.grid.On item.2) (dimension : String) :
    (serializeDimensions composition.arithmetic requested).getD dimension 0 =
      requested.getD dimension 0 := by
  exact getD_serializeDimensions
    (fun item asked => accounted.stored_of_found found positive on asked) dimension

theorem Accounted.room_of_assigned (accounted : Accounted composition amounts tables)
    {old : CapacityReservation} {debit : CapacityReservationDebit} {destination : CapacityBucket}
    (member : old ∈ tables.reservations)
    (debited : tables.debits.find? old.capacityReservationId = some debit)
    (declared : destination ∈ tables.buckets) (room : lacksCapacity composition tables destination
      (reservationDimensions composition old) = false)
    (amount : debit.dimensions.get? dimension = some q) :
    heldDebit tables destination.capacityBucketId dimension (countsIn .always) + q ≤
      declaredTotal composition destination dimension := by
  have item := Dict.get?_eq_some.mp amount
  have positive := (accounted.debits_on debit (Table.find?_eq_some.mp debited).1 _ item).2.1
  refine accounted.room declared .always positive ?_
  rw [accounted.agree old member debit debited] at room
  refine not_lt.mp fun exceeds => ?_
  exact Bool.false_ne_true (room.symm.trans (List.any_eq_true.mpr ⟨_, item, decide_eq_true exceeds⟩))

end Admission

variable {amounts : AmountGrid composition.arithmetic} {declaration : CapacityDeclaration}

def DeclarationOn (amounts : AmountGrid composition.arithmetic)
    (declaration : CapacityDeclaration) : Prop :=
  ∀ item ∈ declaration.capacity, amounts.grid.On item.2 ∧ item.2 ≤ amounts.grid.top

variable (composition moment) in
theorem writeDeclaration_capacity (bucket : CapacityBucket) (declaration : CapacityDeclaration) :
    (writeDeclaration composition moment bucket declaration).capacity =
      serializeDimensions composition.arithmetic declaration.capacity := by
  unfold writeDeclaration
  simp only
  split
  · next same => rw [← same]
  · rfl

theorem DeclarationOn.total (on : DeclarationOn amounts declaration) (dimension : String) :
    amounts.grid.On (declaration.capacity.getD dimension 0) ∧
      0 ≤ declaration.capacity.getD dimension 0 ∧
      declaration.capacity.getD dimension 0 ≤ amounts.grid.top := by
  cases amount : declaration.capacity.get? dimension with
  | none =>
    rw [Dict.getD_of_none amount]
    exact ⟨Grid.on_zero, le_rfl, Grid.top_nonneg⟩
  | some q =>
    rw [Dict.getD_of_some amount]
    have item := Dict.get?_eq_some.mp amount
    exact ⟨(on _ item).1, declaration.capacity_nonneg _ item, (on _ item).2⟩

theorem declaredTotal_written (on : DeclarationOn amounts declaration) (bucket : CapacityBucket)
    (dimension : String) :
    declaredTotal composition (writeDeclaration composition moment bucket declaration) dimension =
      declaration.capacity.getD dimension 0 := by
  have capacity := writeDeclaration_capacity composition moment bucket declaration
  have named : (writeDeclaration composition moment bucket declaration).capacity.rows ≠ [] := by
    rw [capacity]
    exact fun empty => declaration.capacity_nonempty (List.map_eq_nil_iff.mp empty)
  unfold declaredTotal resourceCapacity
  rw [if_neg named, capacity]
  refine getD_serializeDimensions (fun item declared => ?_) dimension
  obtain ⟨isOn, small⟩ := on item declared
  refine amounts.serialize_eq isOn ?_
  rw [abs_of_nonneg (declaration.capacity_nonneg item declared)]
  exact small

/-! ## Every change on the grid keeps the accounts -/

def RequestsOn (amounts : AmountGrid composition.arithmetic) (moment : Moment)
    (request : ReserveRequest) : Prop :=
  ∀ requested mode window,
    parseRequest composition moment request = .ok (requested, mode, window) →
      ∀ item ∈ requested, amounts.grid.On item.2

def ChangeKind.OnGrid (amounts : AmountGrid composition.arithmetic) (moment : Moment) :
    ChangeKind → Prop
  | .accept _ request => RequestsOn amounts moment request
  | .declare declaration => DeclarationOn amounts declaration
  | _ => True

theorem Change.accounted {kind : ChangeKind} {before after : LedgerTables}
    (change : Change composition moment kind before after) (on : kind.OnGrid amounts moment)
    (accounted : Accounted composition amounts before) : Accounted composition amounts after := by
  have agree := change.debitsAgree accounted.agree
  cases change with
  | accept superseding request requested mode window attributes resource available parsed found =>
    have positive := requestedDimensions_pos _ (parseRequest_ok parsed)
    have asked_on := on requested mode window parsed
    refine ⟨agree, fun debit member => ?_, fun debit member item itemMember => ?_,
      accounted.totals_on⟩
    · rcases Table.mem_put.mp member with rfl | ⟨earlier, -⟩
      · exact ⟨resource, (findCandidate_ok composition found).1, rfl⟩
      · exact accounted.backed debit earlier
    · rcases Table.mem_put.mp member with isNew | ⟨earlier, -⟩
      · rw [isNew] at itemMember
        obtain ⟨⟨dimension, q⟩, asked, rfl⟩ := Dict.mem_mapItems.mp itemMember
        have same := accounted.stored_of_found found positive asked_on asked
        simp only [same]
        exact ⟨asked_on _ asked, positive _ asked,
          accounted.le_top_of_found found positive asked⟩
      · exact accounted.debits_on debit earlier item itemMember
  | rebind old debit destination member held debited declared =>
    refine ⟨agree, fun other otherMember => ?_, fun other otherMember item itemMember => ?_,
      accounted.totals_on⟩
    · rcases Table.mem_put.mp otherMember with rfl | ⟨earlier, -⟩
      · exact ⟨destination, declared, rfl⟩
      · exact accounted.backed other earlier
    · rcases Table.mem_put.mp otherMember with isNew | ⟨earlier, -⟩
      · rw [isNew] at itemMember
        exact accounted.debits_on debit (Table.find?_eq_some.mp debited).1 item itemMember
      · exact accounted.debits_on other earlier item itemMember
  | declare bucket old eventKind declaration own =>
    have declared : writeDeclaration composition moment bucket declaration ∈
        before.buckets.table.put (writeDeclaration composition moment bucket declaration) :=
      Table.mem_put.mpr (.inl rfl)
    refine ⟨agree, fun debit member => ?_, accounted.debits_on, fun other otherMember => ?_⟩
    · obtain ⟨backing, backingMember, named⟩ := accounted.backed debit member
      by_cases replaced : backing.capacityBucketId =
          (writeDeclaration composition moment bucket declaration).capacityBucketId
      · exact ⟨_, declared, replaced.symm.trans named⟩
      · exact ⟨backing, Table.mem_put.mpr (.inr ⟨backingMember, replaced⟩), named⟩
    · rcases Table.mem_put.mp otherMember with isNew | ⟨earlier, -⟩
      · rw [isNew]
        intro dimension
        rw [declaredTotal_written on]
        exact on.total dimension
      · exact accounted.totals_on other earlier
  | free | annotate | lease | correlate | truncate | advance =>
    exact ⟨agree, accounted.backed, accounted.debits_on, accounted.totals_on⟩

def LedgerOp.OnGrid (amounts : AmountGrid composition.arithmetic) (moment : Moment) :
    LedgerOp → Prop
  | .reserve request | .resizeReservation _ request => RequestsOn amounts moment request
  | .registerDeclaration declaration => DeclarationOn amounts declaration
  | _ => True

theorem LedgerOp.OnGrid.kinds {op : LedgerOp} (on : op.OnGrid amounts moment) {kind : ChangeKind}
    (own : op.kinds kind) : kind.OnGrid amounts moment := by
  cases op with
  | reserve request =>
    rw [show kind = .accept false request from own]
    exact on
  | resizeReservation id request =>
    rcases own with rfl | rfl
    · trivial
    · exact on
  | registerDeclaration declaration =>
    rw [show kind = .declare declaration from own]
    exact on
  | _ => cases kind <;> simp_all [LedgerOp.kinds, ChangeKind.OnGrid]

theorem perform_accounted {op : LedgerOp} {site : SiteState σ} (on : op.OnGrid amounts moment)
    (accounted : Accounted composition amounts site.tables) :
    Accounted composition amounts (perform composition moment op site).2.tables :=
  perform_preserves (fun _ change => change.accounted trivial)
    (fun own change => change.accounted (on.kinds own)) accounted

theorem Accounted.of_unreserved {tables : LedgerTables}
    (unreserved : tables.reservations = Table.empty) (undebited : tables.debits = Table.empty)
    (totals_on : TotalsOn composition amounts tables) : Accounted composition amounts tables := by
  refine ⟨fun row member => ?_, fun debit member => ?_, fun debit member => ?_, totals_on⟩
  · rw [unreserved] at member
    exact absurd member Table.not_mem_empty
  · rw [undebited] at member
    exact absurd member Table.not_mem_empty
  · rw [undebited] at member
    exact absurd member Table.not_mem_empty

def standaloneIntegers : AmountGrid (Composition.standalone .exact).arithmetic :=
  .integers .exact (10 ^ 28) fun _ _ => rfl

theorem requestsOn_integers {now : Instant} {newId : String} {request : ReserveRequest}
    (integral : ∀ parts ∈ (parseRequest (.standalone .exact) (.vmOnly now newId) request).toOption,
      ∀ item ∈ parts.1.rows, item.2.den = 1) :
    RequestsOn standaloneIntegers (.vmOnly now newId) request := by
  intro requested mode window parsed item member
  rw [parsed] at integral
  exact AmountGrid.on_integers (integral _ rfl item member)

theorem standaloneIntegers_top : standaloneIntegers.grid.top = 10 ^ 28 := by
  norm_num [Grid.top, standaloneIntegers, AmountGrid.integers]

theorem declarationOn_integers
    (integral : ∀ item ∈ declaration.capacity.rows, item.2.den = 1 ∧ item.2 ≤ 10 ^ 28) :
    DeclarationOn standaloneIntegers declaration := by
  intro item member
  obtain ⟨whole, small⟩ := integral item member
  exact ⟨AmountGrid.on_integers whole, by rwa [standaloneIntegers_top]⟩

end ComputeMarket.Site
