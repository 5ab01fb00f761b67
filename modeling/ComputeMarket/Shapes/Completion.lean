import ComputeMarket.Shapes.Policies

/-!
# Admissible values are the completable ones

A shape is completable where it can be extended to a shape without an admissibility problem. What
`admissible_values` answers for a quantity are the values with which the partial shape is
completable, and fixing one quantity after another to such values ends at an admissible shape:
`Coherent`.

A quantity is asked for by its path, which is cut at the first dot. Where the family's name has one
itself, every question about the quantity is refused (`admissible_values_coherent_iff`).
-/

namespace ComputeMarket.Shapes

open Texts

variable {φ : Type}

/-! ## What `resolve` leaves -/

structure Leaf.Sound (leaf : Leaf) : Prop where
  low : ∀ low, leaf.minimum = some low → 0 < low
  high : ∀ high, leaf.maximum = some high → 0 < high
  room : ∀ low high, leaf.minimum = some low → leaf.maximum = some high → low ≤ high

def Merged.Positive (merged : Merged) : Prop :=
  (∀ bound, merged.low = some bound → 0 < bound.value) ∧
    ∀ bound, merged.high = some bound → 0 < bound.value

theorem overwrite_positive {stated : Option ℤ} {rank : ℕ} {tier : Text} {old : Option RankedBound}
    (fresh : ∀ value, stated = some value → 0 < value)
    (kept : ∀ bound, old = some bound → 0 < bound.value) :
    ∀ bound, overwrite stated rank tier old = some bound → 0 < bound.value := by
  intro bound found
  unfold overwrite at found
  split at found
  next value =>
    cases found
    exact fresh value rfl
  next => exact kept bound found

theorem mergeItem_positive {schema : CapabilitySchema} {rank : ℕ} {tier : Text}
    {state : Merging φ} {item : Place × StatedBounds} (sound : item.2.Sound)
    (kept : ∀ place merged, state.2.get? place = some merged → merged.Positive) :
    ∀ place merged, (mergeItem schema rank tier state item).2.get? place = some merged →
      merged.Positive := by
  intro place merged found
  unfold mergeItem at found
  split at found
  next =>
    dsimp only at found
    rw [Dict.get?_set] at found
    split at found
    next =>
      cases found
      have old : (state.2.getD item.1 ⟨none, none⟩).Positive := by
        rw [Dict.getD]
        cases before : state.2.get? item.1 with
        | none =>
          constructor
          · intro bound none
            cases none
          · intro bound none
            cases none
        | some merged => exact kept item.1 merged before
      exact ⟨overwrite_positive sound.2.1 old.1, overwrite_positive sound.2.2 old.2⟩
    next => exact kept place merged found
  next => exact kept place merged found

theorem mergeDeclaration_positive {schema : CapabilitySchema} {state : Merging φ}
    {ranked : Declaration × ℕ}
    (kept : ∀ place merged, state.2.get? place = some merged → merged.Positive) :
    ∀ place merged, (mergeDeclaration schema state ranked).2.get? place = some merged →
      merged.Positive := by
  have sound : ∀ item ∈ ranked.1.bounds.rows, item.2.Sound := ranked.1.sound
  unfold mergeDeclaration
  revert sound
  generalize ranked.1.bounds.rows = rows
  intro sound
  induction rows generalizing state with
  | nil => exact kept
  | cons item rest ih =>
    exact ih (mergeItem_positive (sound item List.mem_cons_self) kept)
      fun other inside => sound other (List.mem_cons_of_mem _ inside)

theorem mergeAll_positive (declarations : List Declaration) (schema : CapabilitySchema) :
    ∀ place merged, (mergeAll declarations schema : Merging φ).2.get? place = some merged →
      merged.Positive := by
  have fold : ∀ (ranked : List (Declaration × ℕ)) (state : Merging φ),
      (∀ place merged, state.2.get? place = some merged → merged.Positive) →
        ∀ place merged, (ranked.foldl (mergeDeclaration schema) state).2.get? place = some merged →
          merged.Positive := by
    intro ranked
    induction ranked with
    | nil => exact fun state kept => kept
    | cons first rest ih => exact fun state kept => ih _ (mergeDeclaration_positive kept)
  refine fold _ _ fun place merged none => ?_
  cases none

theorem room_of_quiet {item : Place × Merged} {low high : RankedBound} (isLow : item.2.low = some low)
    (isHigh : item.2.high = some high)
    (quiet : (emptyRangeProblem item : Option (AdmissibilityProblem φ)) = none) :
    low.value ≤ high.value := by
  rw [emptyRangeProblem, isLow, Option.bind_some, isHigh, Option.bind_some] at quiet
  split at quiet
  next => cases quiet
  next room => exact not_lt.mp room

/-- **What `resolve` accepts has sound leaves.** -/
theorem resolve_sound {declarations : List Declaration} {schema : CapabilitySchema}
    {policy : ResolvedPolicy} (accepted : resolve (φ := φ) declarations schema = .ok policy) :
    policy.schema = schema ∧ ∀ place leaf, policy.leaves.get? place = some leaf → leaf.Sound := by
  unfold resolve at accepted
  dsimp only at accepted
  split at accepted
  next none =>
    cases accepted
    refine ⟨rfl, fun place leaf found => ?_⟩
    obtain ⟨⟨place', merged⟩, member, same⟩ := Dict.mem_mapItems.mp (Dict.get?_eq_some.mp found)
    cases same
    obtain ⟨positive, positive'⟩ := mergeAll_positive (φ := φ) declarations schema place' merged
      (Dict.get?_eq_some.mpr member)
    refine ⟨?_, ?_, ?_⟩
    · intro low isLow
      obtain ⟨bound, there, rfl⟩ := Option.map_eq_some_iff.mp isLow
      exact positive bound there
    · intro high isHigh
      obtain ⟨bound, there, rfl⟩ := Option.map_eq_some_iff.mp isHigh
      exact positive' bound there
    · intro low high isLow isHigh
      obtain ⟨bound, there, rfl⟩ := Option.map_eq_some_iff.mp isLow
      obtain ⟨bound', there', rfl⟩ := Option.map_eq_some_iff.mp isHigh
      exact room_of_quiet there there'
        (List.filterMap_eq_nil_iff.mp (List.append_eq_nil_iff.mp none).2 _ member)
  next => cases accepted

section

variable [Floats φ] {schema : CapabilitySchema} {shape : Document φ}

omit [Floats φ] in
theorem CapabilitySchema.mem_opened {definition : ShapeField} :
    definition ∈ schema.opened.fields ↔
      ∃ old ∈ schema.fields, { old with required := false } = definition :=
  List.mem_map

def Defined (schema : CapabilitySchema) (shape : Document φ) : Prop :=
  ∀ family field value, States shape family field value →
    ∃ definition, schema.lookup family field = some definition ∧
      fitsKind definition.kind value = true

def NoEmptyFamily (shape : Document φ) : Prop :=
  ∀ family, Names shape family → ∃ field value, States shape family field value

omit [Floats φ] in
theorem defined_opened : Defined schema.opened shape ↔ Defined schema shape := by
  refine forall₃_congr fun family field value => imp_congr_right fun _ => ?_
  constructor
  · rintro ⟨definition, looked, fits⟩
    obtain ⟨member, rfl, rfl⟩ := CapabilitySchema.lookup_eq_some.mp looked
    obtain ⟨old, inside, rfl⟩ := CapabilitySchema.mem_opened.mp member
    exact ⟨old, CapabilitySchema.lookup_eq_some.mpr ⟨inside, rfl, rfl⟩, fits⟩
  · rintro ⟨old, looked, fits⟩
    obtain ⟨inside, rfl, rfl⟩ := CapabilitySchema.lookup_eq_some.mp looked
    exact ⟨{ old with required := false }, CapabilitySchema.lookup_eq_some.mpr
      ⟨CapabilitySchema.mem_opened.mpr ⟨old, inside, rfl⟩, rfl, rfl⟩, fits⟩

theorem isScalar_of_fits {kind : FieldKind} {value : Document φ}
    (fits : fitsKind kind value = true) : isScalar value = true := by
  cases kind <;> cases value <;> first | rfl | cases fits

theorem shapeProblems_opened (distinct : Distinct shape) :
    shapeProblems shape schema.opened = [] ↔
      (∃ family field value, States shape family field value) ∧ NoEmptyFamily shape ∧
        Defined schema shape := by
  rw [shapeProblems_eq_nil_iff distinct]
  constructor
  · rintro ⟨structured, conforms⟩
    exact ⟨structured.stated, structured.filled, defined_opened.mp conforms.defined⟩
  · rintro ⟨stated, filled, defined⟩
    refine ⟨⟨stated, filled, fun family field value there => ?_⟩, defined_opened.mpr defined, ?_⟩
    · obtain ⟨definition, looked, fits⟩ := defined family field value there
      obtain ⟨member, rfl, rfl⟩ := CapabilitySchema.lookup_eq_some.mp looked
      obtain ⟨family, field, -⟩ := schema.named definition member
      exact ⟨family, field, isScalar_of_fits fits⟩
    · intro definition member required
      obtain ⟨old, -, rfl⟩ := CapabilitySchema.mem_opened.mp member
      cases required

end

/-! ## Violations -/

section

variable {policy : ResolvedPolicy} {shape : Document φ}

/-- A value that a field's bounds allow. -/
def ResolvedPolicy.Within (policy : ResolvedPolicy) (place : Place) (n : ℤ) : Prop :=
  ∀ leaf, policy.leaves.get? place = some leaf →
    (∀ low, leaf.minimum = some low → low ≤ n) ∧ ∀ high, leaf.maximum = some high → n ≤ high

theorem valueViolations_int {place : Place} {n : ℤ} :
    (policy.valueViolations place (.int n) : List (AdmissibilityProblem φ)) = [] ↔
      policy.Within place n := by
  unfold ResolvedPolicy.valueViolations ResolvedPolicy.Within
  cases policy.leaves.get? place with
  | none => exact iff_of_true rfl fun leaf none => by cases none
  | some leaf =>
    simp only [Option.some.injEq, forall_eq', List.append_eq_nil_iff]
    refine and_congr ?_ ?_
    · cases leaf.minimum with
      | none => exact iff_of_true rfl fun low none => by cases none
      | some low =>
        simp only [Option.some.injEq, forall_eq']
        split
        next below => exact iff_of_false (List.cons_ne_nil _ _) (not_le.mpr below)
        next room => exact iff_of_true rfl (not_lt.mp room)
    · cases leaf.maximum with
      | none => exact iff_of_true rfl fun high none => by cases none
      | some high =>
        simp only [Option.some.injEq, forall_eq']
        split
        next above => exact iff_of_false (List.cons_ne_nil _ _) (not_le.mpr above)
        next room => exact iff_of_true rfl (not_lt.mp room)

theorem valueViolations_other {place : Place} {value : Document φ} (other : ∀ n, value ≠ .int n) :
    (policy.valueViolations place value : List (AdmissibilityProblem φ)) = [] := by
  unfold ResolvedPolicy.valueViolations
  split
  next n _ => exact absurd rfl (other n)
  next => rfl

def ResolvedPolicy.Bounded (policy : ResolvedPolicy) (shape : Document φ) : Prop :=
  ∀ family field n, States shape family field (.int n) → policy.Within (family, field) n

theorem violations_eq_nil : policy.violations shape = [] ↔ policy.Bounded shape := by
  have stated : ∀ family field value, States shape family field value ↔
      ∃ member ∈ canonicalFamilies shape, ∃ entry ∈ member.2,
        member.1 = family ∧ entry = (field, value) := by
    intro family field value
    rw [← (sameShape_canonicalFamilies shape).states, states_ofFamilies]
    constructor
    · rintro ⟨fields, inside, present⟩
      exact ⟨_, inside, _, present, rfl, rfl⟩
    · rintro ⟨⟨name, fields⟩, inside, entry, present, rfl, rfl⟩
      exact ⟨fields, inside, present⟩
  simp only [ResolvedPolicy.violations, List.flatMap_eq_nil_iff]
  constructor
  · intro quiet family field n there
    obtain ⟨member, inside, entry, present, rfl, rfl⟩ := (stated _ _ _).mp there
    exact valueViolations_int.mp (quiet member inside _ present)
  · rintro bounded member inside ⟨field, value⟩ present
    by_cases integer : ∃ n, value = .int n
    · obtain ⟨n, rfl⟩ := integer
      exact valueViolations_int.mpr (bounded member.1 field n
        ((stated _ _ _).mpr ⟨member, inside, _, present, rfl, rfl⟩))
    · exact valueViolations_other fun n same => integer ⟨n, same⟩

/-- **What admissibility asks of a shape.** -/
theorem admissibilityProblems_eq_nil [Floats φ] (distinct : Distinct shape) :
    policy.admissibilityProblems shape = [] ↔
      (∃ family field value, States shape family field value) ∧ NoEmptyFamily shape ∧
        Defined policy.schema shape ∧ policy.Bounded shape := by
  unfold ResolvedPolicy.admissibilityProblems
  split
  next none =>
    obtain ⟨stated, filled, defined⟩ := (shapeProblems_opened distinct).mp none
    rw [violations_eq_nil]
    exact ⟨fun bounded => ⟨stated, filled, defined, bounded⟩, fun all => all.2.2.2⟩
  next problem problems some' =>
  refine iff_of_false (List.cons_ne_nil _ _) ?_
  rintro ⟨stated, filled, defined, -⟩
  rw [(shapeProblems_opened distinct).mpr ⟨stated, filled, defined⟩] at some'
  cases some'

def Extends (bigger smaller : Document φ) : Prop :=
  ∀ family field value, States smaller family field value → States bigger family field value

def Completable [Floats φ] (policy : ResolvedPolicy) (shape : Document φ) : Prop :=
  ∃ bigger, Distinct bigger ∧ Extends bigger shape ∧ policy.admissibilityProblems bigger = []

/-- **A shape that states something is completable exactly where it is admissible itself.** -/
theorem completable_iff [Floats φ] (distinct : Distinct shape)
    (stated : ∃ family field value, States shape family field value)
    (filled : NoEmptyFamily shape) :
    Completable policy shape ↔ policy.admissibilityProblems shape = [] := by
  constructor
  · rintro ⟨bigger, distinct', extends', admissible⟩
    obtain ⟨-, -, defined, bounded⟩ := (admissibilityProblems_eq_nil distinct').mp admissible
    refine (admissibilityProblems_eq_nil distinct).mpr ⟨stated, filled, ?_, ?_⟩
    · exact fun family field value there => defined family field value
        (extends' family field value there)
    · exact fun family field n there => bounded family field n (extends' family field _ there)
  · intro admissible
    exact ⟨shape, distinct, fun _ _ _ there => there, admissible⟩

end

/-! ## One field set, one field taken out -/

def putMember {α : Type} (members : List (Text × α)) (key : Text) (value : α) : List (Text × α) :=
  members.filter (fun member => member.1 ≠ key) ++ [(key, value)]

def withField (shape : Document φ) (place : Place) (value : Document φ) : Document φ :=
  let fields := membersOf ((findMember (membersOf shape) place.1).getD (.obj []))
  .obj (putMember (membersOf shape) place.1 (.obj (putMember fields place.2 value)))

theorem mem_putMember {α : Type} {members : List (Text × α)} {key : Text} {value : α}
    {member : Text × α} : member ∈ putMember members key value ↔
      member ∈ members ∧ member.1 ≠ key ∨ member = (key, value) := by
  rw [putMember, List.mem_append, List.mem_singleton, List.mem_filter, decide_eq_true_eq]

theorem nodup_putMember {α : Type} {members : List (Text × α)}
    (distinct : (members.map Prod.fst).Nodup) (key : Text) (value : α) :
    ((putMember members key value).map Prod.fst).Nodup := by
  rw [putMember, List.map_append, List.map_singleton]
  refine (distinct.sublist (List.filter_sublist.map _)).append (List.nodup_singleton _) ?_
  intro name inside same
  obtain ⟨member, kept, rfl⟩ := List.mem_map.mp inside
  exact of_decide_eq_true (List.mem_filter.mp kept).2 (List.mem_singleton.mp same)

section

variable {shape : Document φ} {place : Place}

theorem mem_family_iff (distinct : Distinct shape) (place : Place) {field : Text} {value : Document φ} :
    (field, value) ∈ membersOf ((findMember (membersOf shape) place.1).getD (.obj [])) ↔
      States shape place.1 field value := by
  cases found : findMember (membersOf shape) place.1 with
  | none =>
    refine iff_of_false List.not_mem_nil fun stated => ?_
    obtain ⟨fields, inside, -⟩ := states_iff.mp stated
    exact findMember_eq_none.mp found fields inside
  | some document =>
    rw [Option.getD_some, distinct.states_under (mem_of_findMember found)]

theorem states_withField (distinct : Distinct shape) {value : Document φ} {family field : Text}
    {stated : Document φ} : States (withField shape place value) family field stated ↔
      if (family, field) = place then stated = value else States shape family field stated := by
  obtain ⟨family', field'⟩ := place
  rw [states_iff]
  change (∃ fields, (family, fields) ∈ putMember _ _ _ ∧ _) ↔ _
  simp only [mem_putMember, Prod.mk.injEq]
  by_cases sameFamily : family = family'
  · subst sameFamily
    have inner : (∃ fields, ((family, fields) ∈ membersOf shape ∧ family ≠ family ∨
        True ∧ fields = .obj (putMember (membersOf ((findMember (membersOf shape) family).getD
          (.obj []))) field' value)) ∧ (field, stated) ∈ membersOf fields) ↔
        (field, stated) ∈ putMember (membersOf ((findMember (membersOf shape) family).getD
          (.obj []))) field' value := by
      constructor
      · rintro ⟨fields, ⟨-, differ⟩ | ⟨-, rfl⟩, member⟩
        · exact absurd rfl differ
        · exact member
      · intro member
        exact ⟨_, .inr ⟨trivial, rfl⟩, member⟩
    simp only [true_and] at inner ⊢
    rw [inner, mem_putMember, mem_family_iff distinct (family, field')]
    by_cases sameField : field = field'
    · subst sameField
      simp
    · simp [sameField]
  · have differs : ¬(family = family' ∧ field = field') := fun both => sameFamily both.1
    rw [if_neg differs, states_iff]
    constructor
    · rintro ⟨fields, ⟨inside, -⟩ | ⟨same, -⟩, member⟩
      · exact ⟨fields, inside, member⟩
      · exact absurd same sameFamily
    · rintro ⟨fields, inside, member⟩
      exact ⟨fields, .inl ⟨inside, sameFamily⟩, member⟩

theorem names_withField {value : Document φ} {family : Text} :
    Names (withField shape place value) family ↔ family = place.1 ∨ Names shape family := by
  change (∃ document, (family, document) ∈ putMember _ _ _) ↔ _
  simp only [mem_putMember, Prod.mk.injEq]
  constructor
  · rintro ⟨document, ⟨inside, -⟩ | ⟨same, -⟩⟩
    · exact .inr ⟨document, inside⟩
    · exact .inl same
  · intro either
    by_cases same : family = place.1
    · exact ⟨_, .inr ⟨same, rfl⟩⟩
    · obtain ⟨document, inside⟩ := either.resolve_left same
      exact ⟨document, .inl ⟨inside, same⟩⟩

theorem distinct_withField (distinct : Distinct shape) {value : Document φ} :
    Distinct (withField shape place value) := by
  constructor
  · exact nodup_putMember distinct.families _ _
  · intro member inside
    rcases mem_putMember.mp inside with ⟨old, -⟩ | rfl
    · exact distinct.fields member old
    · refine nodup_putMember ?_ _ _
      cases found : findMember (membersOf shape) place.1 with
      | none => exact List.nodup_nil
      | some document => exact distinct.fields _ (mem_of_findMember found)

theorem noEmptyFamily_withField (distinct : Distinct shape) (filled : NoEmptyFamily shape)
    {value : Document φ} : NoEmptyFamily (withField shape place value) := by
  intro family named
  rcases names_withField.mp named with rfl | named
  · exact ⟨place.2, value, (states_withField distinct).mpr (by rw [if_pos rfl])⟩
  · obtain ⟨field, stated, there⟩ := filled family named
    by_cases here : (family, field) = place
    · exact ⟨field, value, (states_withField distinct).mpr (by rw [if_pos here])⟩
    · exact ⟨field, stated, (states_withField distinct).mpr (by rwa [if_neg here])⟩

theorem withoutField_cases (distinct : Distinct shape) (place : Place) :
    (withoutField shape place = shape ∧ ∀ value, ¬States shape place.1 place.2 value) ∨
    ∃ fields, (place.1, .obj fields) ∈ membersOf shape ∧
      withoutField shape place = .obj ((membersOf shape).filter (fun member => member.1 ≠ place.1) ++
        if fields.filter (fun entry => entry.1 ≠ place.2) = [] then []
        else [(place.1, .obj (fields.filter fun entry => entry.1 ≠ place.2))]) := by
  have absent : ∀ {document : Document φ}, findMember (membersOf shape) place.1 = some document →
      findMember (membersOf document) place.2 = none →
        ∀ value, ¬States shape place.1 place.2 value := by
    intro document found none value stated
    exact findMember_eq_none.mp none value
      ((distinct.states_under (mem_of_findMember found)).mp stated)
  cases shape with
  | obj members =>
    cases found : findMember members place.1 with
    | none =>
      refine .inl ⟨by rw [withoutField, found], fun value stated => ?_⟩
      obtain ⟨fields, inside, -⟩ := states_iff.mp stated
      exact findMember_eq_none.mp found fields inside
    | some document =>
      cases document with
      | obj fields =>
        cases there : findMember fields place.2 with
        | none =>
          refine .inl ⟨?_, absent found there⟩
          rw [withoutField, found]
          dsimp only
          rw [there, Option.isSome_none, if_neg Bool.false_ne_true]
        | some value =>
          refine .inr ⟨fields, mem_of_findMember found, ?_⟩
          rw [withoutField, found]
          dsimp only
          rw [there, Option.isSome_some, if_pos rfl]
          split
          · rw [List.append_nil]
            rfl
          · rfl
      | _ => exact .inl ⟨by rw [withoutField, found], absent found rfl⟩
  | _ =>
    refine .inl ⟨rfl, fun value stated => ?_⟩
    obtain ⟨fields, inside, -⟩ := states_iff.mp stated
    cases inside

theorem mem_withoutField {fields : List (Text × Document φ)} {member : Text × Document φ} :
    member ∈ (membersOf shape).filter (fun member => member.1 ≠ place.1) ++
        (if fields.filter (fun entry => entry.1 ≠ place.2) = [] then []
        else [(place.1, Document.obj (fields.filter fun entry => entry.1 ≠ place.2))]) ↔
      member ∈ membersOf shape ∧ member.1 ≠ place.1 ∨
        fields.filter (fun entry => entry.1 ≠ place.2) ≠ [] ∧
          member = (place.1, .obj (fields.filter fun entry => entry.1 ≠ place.2)) := by
  rw [List.mem_append, List.mem_filter, decide_eq_true_eq]
  refine or_congr_right ?_
  split
  next none => exact iff_of_false List.not_mem_nil fun both => both.1 none
  next some' => rw [List.mem_singleton, and_iff_right some']

theorem states_withoutField (distinct : Distinct shape) {family field : Text}
    {value : Document φ} : States (withoutField shape place) family field value ↔
      (family, field) ≠ place ∧ States shape family field value := by
  rcases withoutField_cases distinct place with ⟨same, absent⟩ | ⟨fields, inside, same⟩
  · rw [same]
    refine ⟨fun stated => ⟨?_, stated⟩, And.right⟩
    rintro rfl
    exact absent value stated
  · rw [same, states_iff, membersOf_obj]
    simp only [mem_withoutField]
    constructor
    · rintro ⟨document, ⟨old, differs⟩ | ⟨-, new⟩, member⟩
      · exact ⟨fun here => differs (congrArg Prod.fst here), states_iff.mpr ⟨document, old, member⟩⟩
      · cases new
        obtain ⟨present, differs⟩ := List.mem_filter.mp member
        exact ⟨fun here => of_decide_eq_true differs (congrArg Prod.snd here),
          states_iff.mpr ⟨_, inside, present⟩⟩
    · rintro ⟨differs, stated⟩
      obtain ⟨document, old, member⟩ := states_iff.mp stated
      by_cases sameFamily : family = place.1
      · subst sameFamily
        have one := List.inj_on_of_nodup_map distinct.families old inside rfl
        cases one
        have kept : (field, value) ∈ fields.filter fun entry => entry.1 ≠ place.2 :=
          List.mem_filter.mpr ⟨member, decide_eq_true fun here => differs (Prod.ext rfl here)⟩
        exact ⟨_, .inr ⟨List.ne_nil_of_mem kept, rfl⟩, kept⟩
      · exact ⟨document, .inl ⟨old, sameFamily⟩, member⟩

theorem distinct_withoutField (distinct : Distinct shape) :
    Distinct (withoutField shape place) := by
  rcases withoutField_cases distinct place with ⟨same, -⟩ | ⟨fields, inside, same⟩
  · rwa [same]
  · rw [same]
    constructor
    · rw [membersOf_obj, List.map_append]
      refine (distinct.families.sublist (List.filter_sublist.map _)).append ?_ ?_
      · split
        · exact List.nodup_nil
        · exact List.nodup_singleton _
      · intro name kept new
        obtain ⟨member, present, rfl⟩ := List.mem_map.mp kept
        obtain ⟨other, present', here⟩ := List.mem_map.mp new
        split at present'
        · cases present'
        · cases List.mem_singleton.mp present'
          exact of_decide_eq_true (List.mem_filter.mp present).2 here.symm
    · intro member present
      rcases mem_withoutField.mp present with ⟨old, -⟩ | ⟨-, rfl⟩
      · exact distinct.fields member old
      · exact (distinct.fields _ inside).sublist (List.filter_sublist.map _)

theorem noEmptyFamily_withoutField (distinct : Distinct shape) (filled : NoEmptyFamily shape) :
    NoEmptyFamily (withoutField shape place) := by
  rcases withoutField_cases distinct place with ⟨same, -⟩ | ⟨fields, inside, same⟩
  · rwa [same]
  · rintro family ⟨document, present⟩
    rw [same, membersOf_obj] at present
    rcases mem_withoutField.mp present with ⟨old, differs⟩ | ⟨some', new⟩
    · obtain ⟨field, value, stated⟩ := filled family ⟨document, old⟩
      exact ⟨field, value, (states_withoutField distinct).mpr
        ⟨fun here => differs (congrArg Prod.fst here), stated⟩⟩
    · cases new
      obtain ⟨⟨field, value⟩, kept⟩ := List.exists_mem_of_ne_nil _ some'
      obtain ⟨member, differs⟩ := List.mem_filter.mp kept
      exact ⟨field, value, (states_withoutField distinct).mpr
        ⟨fun here => of_decide_eq_true differs (congrArg Prod.snd here),
          states_iff.mpr ⟨_, inside, member⟩⟩⟩

end

/-! ## The ends of an answer -/

/-- An answer that is empty, or begins at one or above and has room up to its end. -/
def AdmissibleValues.Sound (values : AdmissibleValues) : Prop :=
  ∀ low, values.low = some low → 0 < low ∧ ∀ high, values.high = some high → low ≤ high

namespace AdmissibleValues

variable {values : AdmissibleValues}

theorem contains_iff {value : ℤ} : values.contains value = true ↔
    ∃ low, values.low = some low ∧ 0 < value ∧ low ≤ value ∧
      ∀ high, values.high = some high → value ≤ high := by
  unfold contains
  cases values.low with
  | none =>
    refine iff_of_false Bool.false_ne_true ?_
    rintro ⟨low, none, -⟩
    cases none
  | some low =>
    simp only [Option.some.injEq, exists_eq_left']
    split
    next positive =>
      rw [Bool.and_eq_true, decide_eq_true_eq, Option.all_eq_true]
      simp only [decide_eq_true_eq, positive, true_and]
    next other => exact iff_of_false Bool.false_ne_true fun all => other all.1

/-- **The greatest member that is not above, or none where there is none.** -/
theorem atMost_spec (sound : values.Sound) (threshold : ℚ) :
    (∀ value, values.atMost threshold = some value ↔
      IsGreatest {member : ℤ | values.contains member = true ∧ (member : ℚ) ≤ threshold} value) ∧
    (values.atMost threshold = none ↔
      ∀ member : ℤ, values.contains member = true → ¬(member : ℚ) ≤ threshold) := by
  simp only [IsGreatest, mem_upperBounds, Set.mem_ofPred_eq, contains_iff, ← Int.le_floor]
  rcases values with ⟨_ | low, high⟩
  · simp [atMost]
  · obtain ⟨positive, room⟩ := sound low rfl
    simp only [atMost, Option.some.injEq, exists_eq_left']
    split
    next below =>
      refine ⟨fun value => iff_of_false nofun ?_, iff_of_true rfl ?_⟩
      · rintro ⟨⟨⟨-, least, -⟩, under⟩, -⟩
        omega
      · rintro member ⟨-, least, -⟩
        omega
    next above =>
      rcases high with _ | high
      · simp only [Option.some.injEq, reduceCtorEq, false_implies, implies_true, and_true]
        refine ⟨fun value => ⟨?_, ?_⟩, iff_of_false nofun fun none => ?_⟩
        · rintro rfl
          exact ⟨⟨⟨by omega, by omega⟩, le_rfl⟩, fun other inside => inside.2⟩
        · rintro ⟨⟨⟨-, least⟩, under⟩, greatest⟩
          have most := greatest ⌊threshold⌋ ⟨⟨by omega, by omega⟩, le_rfl⟩
          omega
        · exact none ⌊threshold⌋ ⟨by omega, by omega⟩ le_rfl
      · have fits := room high rfl
        simp only [Option.some.injEq, forall_eq']
        refine ⟨fun value => ⟨?_, ?_⟩, iff_of_false nofun fun none => ?_⟩
        · rintro rfl
          exact ⟨⟨⟨by omega, by omega, by omega⟩, by omega⟩, fun other inside => by omega⟩
        · rintro ⟨⟨⟨-, least, last⟩, under⟩, greatest⟩
          have most := greatest (min ⌊threshold⌋ high) ⟨⟨by omega, by omega, by omega⟩, by omega⟩
          omega
        · exact none (min ⌊threshold⌋ high) ⟨by omega, by omega, by omega⟩ (by omega)

/-- **The least member that is not below, or none where there is none.** -/
theorem atLeast_spec (sound : values.Sound) (threshold : ℚ) :
    (∀ value, values.atLeast threshold = some value ↔
      IsLeast {member : ℤ | values.contains member = true ∧ threshold ≤ (member : ℚ)} value) ∧
    (values.atLeast threshold = none ↔
      ∀ member : ℤ, values.contains member = true → ¬threshold ≤ (member : ℚ)) := by
  simp only [IsLeast, mem_lowerBounds, Set.mem_ofPred_eq, contains_iff, ← Int.ceil_le]
  rcases values with ⟨_ | low, high⟩
  · simp [atLeast]
  · obtain ⟨positive, room⟩ := sound low rfl
    simp only [atLeast, Option.some.injEq, exists_eq_left']
    rcases high with _ | high
    · simp only [Option.some.injEq, reduceCtorEq, false_implies, implies_true, and_true]
      refine ⟨fun value => ⟨?_, ?_⟩, iff_of_false nofun fun none => ?_⟩
      · rintro rfl
        exact ⟨⟨⟨by omega, by omega⟩, by omega⟩, fun other inside => by omega⟩
      · rintro ⟨⟨⟨-, first⟩, under⟩, least⟩
        have most := least (max ⌈threshold⌉ low) ⟨⟨by omega, by omega⟩, by omega⟩
        omega
      · exact none (max ⌈threshold⌉ low) ⟨by omega, by omega⟩ (by omega)
    · have fits := room high rfl
      simp only [Option.some.injEq, forall_eq']
      split
      next above =>
        refine ⟨fun value => iff_of_false nofun ?_, iff_of_true rfl ?_⟩
        · rintro ⟨⟨⟨-, first, last⟩, under⟩, -⟩
          omega
        · rintro member ⟨-, first, last⟩
          omega
      next within =>
        simp only [Option.some.injEq]
        refine ⟨fun value => ⟨?_, ?_⟩, iff_of_false nofun fun none => ?_⟩
        · rintro rfl
          exact ⟨⟨⟨by omega, by omega, by omega⟩, by omega⟩, fun other inside => by omega⟩
        · rintro ⟨⟨⟨-, first, last⟩, under⟩, least⟩
          have most := least (max ⌈threshold⌉ low) ⟨⟨by omega, by omega, by omega⟩, by omega⟩
          omega
        · exact none (max ⌈threshold⌉ low) ⟨by omega, by omega, by omega⟩ (by omega)

end AdmissibleValues

/-! ## Answers -/

/-- `{}` or a shape that is well formed under the schema, no field being required. -/
structure PartialShape [Floats φ] (policy : ResolvedPolicy) (shape : Document φ) : Prop where
  distinct : Distinct shape
  formed : shape = .obj [] ∨ shapeProblems shape policy.schema.opened = []

section

variable [Floats φ] {policy : ResolvedPolicy} {shape : Document φ} {definition : ShapeField}

def ShapeField.place (definition : ShapeField) : Place := (definition.family, definition.field)

omit [Floats φ] in
theorem not_states_empty {family field : Text} {value : Document φ} :
    ¬States (.obj []) family field value := List.not_mem_nil

omit [Floats φ] in
theorem noEmptyFamily_empty : NoEmptyFamily (.obj [] : Document φ) := by
  rintro family ⟨value, inside⟩
  cases inside

theorem PartialShape.noEmptyFamily (known : PartialShape policy shape) : NoEmptyFamily shape := by
  rcases known.formed with rfl | formed
  · exact noEmptyFamily_empty
  · exact ((shapeProblems_opened known.distinct).mp formed).2.1

theorem PartialShape.defined (known : PartialShape policy shape) :
    Defined policy.schema shape := by
  rcases known.formed with rfl | formed
  · exact fun _ _ _ stated => absurd stated not_states_empty
  · exact ((shapeProblems_opened known.distinct).mp formed).2.2

omit [Floats φ] in
theorem isQuantity_iff {schema : CapabilitySchema} {place : Place} :
    isQuantity schema place = true ↔ ∃ definition,
      schema.lookup place.1 place.2 = some definition ∧ definition.kind = .quantity := by
  unfold isQuantity
  cases schema.lookup place.1 place.2 with
  | none => simp
  | some definition => simp

omit [Floats φ] in
theorem empty_or_states (filled : NoEmptyFamily shape) :
    membersOf shape = [] ∨ ∃ family field value, States shape family field value := by
  rcases none : membersOf shape with _ | ⟨⟨family, value⟩, rest⟩
  · exact .inl rfl
  · exact .inr ⟨family, filled family ⟨value, by rw [none]; exact List.mem_cons_self⟩⟩

theorem obj_of_formed (known : PartialShape policy shape) : ∃ members, shape = .obj members := by
  rcases known.formed with rfl | formed
  · exact ⟨[], rfl⟩
  · obtain ⟨⟨family, field, value, stated⟩, -⟩ := (shapeProblems_opened known.distinct).mp formed
    obtain ⟨fields, inside, -⟩ := states_iff.mp stated
    cases shape with
    | obj members => exact ⟨members, rfl⟩
    | _ => cases inside

theorem PartialShape.withoutField (known : PartialShape policy shape) (place : Place) :
    PartialShape policy (withoutField shape place) := by
  have distinct : Distinct (Shapes.withoutField shape place) :=
    distinct_withoutField known.distinct
  have filled : NoEmptyFamily (Shapes.withoutField shape place) :=
    noEmptyFamily_withoutField known.distinct known.noEmptyFamily
  refine ⟨distinct, ?_⟩
  rcases empty_or_states filled with none | stated
  · left
    obtain ⟨members, rfl⟩ := obj_of_formed known
    rcases withoutField_cases known.distinct place with ⟨same, -⟩ | ⟨fields, -, same⟩
    · rw [same] at none ⊢
      exact congrArg Document.obj none
    · rw [same] at none ⊢
      exact congrArg Document.obj none
  · exact .inr ((shapeProblems_opened distinct).mpr ⟨stated, filled, fun family field value there =>
      known.defined family field value ((states_withoutField known.distinct).mp there).2⟩)

omit [Floats φ] in
theorem quantityPath_of_plain (member : definition ∈ policy.schema.fields)
    (quantity : definition.kind = .quantity) (plain : '.'.toNat ∉ definition.family) :
    policy.quantityPath definition.path =
      (.ok definition.place : Except (List (AdmissibilityProblem φ)) Place) := by
  have cut : partition definition.path = definition.place := partition_of_clear plain
  have dot : '.'.toNat ∈ definition.path :=
    List.mem_append_right _ List.mem_cons_self
  have known : isQuantity policy.schema definition.place = true :=
    isQuantity_iff.mpr ⟨definition, CapabilitySchema.lookup_eq_some.mpr ⟨member, rfl, rfl⟩, quantity⟩
  unfold ResolvedPolicy.quantityPath
  rw [cut]
  exact if_pos ⟨dot, known⟩

omit [Floats φ] in
theorem quantityPath_of_dotted (member : definition ∈ policy.schema.fields)
    (dotted : '.'.toNat ∈ definition.family) : ∃ problems,
      policy.quantityPath definition.path =
        (.error problems : Except (List (AdmissibilityProblem φ)) Place) := by
  unfold ResolvedPolicy.quantityPath
  dsimp only
  split
  next both =>
    -- The path names one field of the schema, and that one's family has a dot.
    obtain ⟨dot, known⟩ := both
    obtain ⟨other, looked, -⟩ := isQuantity_iff.mp known
    obtain ⟨inside, family, field⟩ := CapabilitySchema.lookup_eq_some.mp looked
    have front : '.'.toNat ∉ (partition definition.path).1 := fun here =>
      absurd (List.mem_takeWhile_imp here) (by decide)
    have whole : pathOf (partition definition.path).1 (partition definition.path).2 =
        definition.path := partition_append dot
    have same := List.inj_on_of_nodup_map policy.schema.paths inside member
      ((pathOf_inj family field).trans whole)
    subst same
    rw [← family] at front
    exact absurd dotted front
  next => exact ⟨_, rfl⟩

/-- The leaves of the policy are as `resolve` leaves them. -/
def ResolvedPolicy.Sound (policy : ResolvedPolicy) : Prop :=
  ∀ place leaf, policy.leaves.get? place = some leaf → leaf.Sound

omit [Floats φ] in
theorem leafValues_sound (sound : policy.Sound) (place : Place) :
    (policy.leafValues place).Sound := by
  unfold ResolvedPolicy.leafValues
  cases found : policy.leaves.get? place with
  | none =>
    intro low isLow
    cases isLow
    exact ⟨by decide, fun high none => by cases none⟩
  | some leaf =>
    obtain ⟨positive, positive', room⟩ := sound place leaf found
    intro low isLow
    cases isLow
    cases minimum : leaf.minimum with
    | none => exact ⟨by decide, fun high isHigh => positive' high isHigh⟩
    | some low =>
      rw [Option.getD_some, if_neg (positive low minimum).ne']
      exact ⟨positive low minimum, fun high isHigh => room low high minimum isHigh⟩

omit [Floats φ] in
theorem contains_leafValues (sound : policy.Sound) {place : Place} {n : ℤ} :
    (policy.leafValues place).contains n = true ↔ 0 < n ∧ policy.Within place n := by
  rw [AdmissibleValues.contains_iff]
  unfold ResolvedPolicy.leafValues ResolvedPolicy.Within
  cases found : policy.leaves.get? place with
  | none =>
    constructor
    · rintro ⟨low, -, positive, -⟩
      exact ⟨positive, fun leaf none => by cases none⟩
    · rintro ⟨positive, -⟩
      exact ⟨1, rfl, positive, positive, fun high none => by cases none⟩
  | some leaf =>
    have positive := (sound place leaf found).low
    simp only [Option.some.injEq, forall_eq', exists_eq_left']
    cases minimum : leaf.minimum with
    | none =>
      simp only [Option.getD_none, if_true, reduceCtorEq, false_implies, implies_true, true_and]
      exact and_congr_right fun positive => and_iff_right positive
    | some low =>
      have some' := positive low minimum
      simp only [Option.getD_some, if_neg some'.ne', Option.some.injEq, forall_eq']

omit [Floats φ] in
theorem exists_leafValue (sound : policy.Sound) (place : Place) :
    ∃ n, (policy.leafValues place).contains n = true := by
  have ends := leafValues_sound sound place
  obtain ⟨low, isLow⟩ : ∃ low, (policy.leafValues place).low = some low := by
    unfold ResolvedPolicy.leafValues
    split
    · exact ⟨_, rfl⟩
    · exact ⟨_, rfl⟩
  obtain ⟨positive, room⟩ := ends low isLow
  exact ⟨low, AdmissibleValues.contains_iff.mpr ⟨low, isLow, positive, le_rfl, room⟩⟩

/-- **What is answered for a quantity that its path names.** -/
theorem admissibleValues_eq (known : PartialShape policy shape) {place : Place} {dimension : Text}
    (named : policy.quantityPath dimension =
      (.ok place : Except (List (AdmissibilityProblem φ)) Place)) :
    policy.admissibleValues dimension shape = .ok (policy.leafValues place) ∧
        policy.Bounded (withoutField shape place) ∨
      policy.admissibleValues dimension shape = .ok ⟨none, none⟩ ∧
        ¬policy.Bounded (withoutField shape place) := by
  obtain ⟨distinct, formed⟩ := known.withoutField place
  unfold ResolvedPolicy.admissibleValues
  rw [named]
  dsimp only
  rcases formed with empty | formed
  · rw [empty]
    exact .inl ⟨rfl, fun _ _ _ stated => absurd stated not_states_empty⟩
  · split
    next empty =>
      refine .inl ⟨rfl, fun _ _ _ stated => absurd stated ?_⟩
      rw [empty]
      exact not_states_empty
    next =>
      rw [formed]
      dsimp only
      split
      next none => exact .inl ⟨rfl, violations_eq_nil.mp none⟩
      next problem problems some' =>
      refine .inr ⟨rfl, fun bounded => ?_⟩
      rw [violations_eq_nil.mpr bounded] at some'
      cases some'

theorem completable_withField_iff (known : PartialShape policy shape)
    (member : definition ∈ policy.schema.fields) (quantity : definition.kind = .quantity) {n : ℤ} :
    Completable policy (withField shape definition.place (.int n)) ↔
      (0 < n ∧ policy.Within definition.place n) ∧
        policy.Bounded (withoutField shape definition.place) := by
  have distinct := known.distinct
  have states := fun {family field value} =>
    @states_withField _ shape definition.place distinct (.int n) family field value
  have there : States (withField shape definition.place (.int n)) definition.family
      definition.field (.int n) := states.mpr (if_pos rfl ▸ rfl)
  have filled := @noEmptyFamily_withField _ shape definition.place distinct known.noEmptyFamily
    (.int n)
  rw [completable_iff (distinct_withField distinct) ⟨_, _, _, there⟩ filled,
    admissibilityProblems_eq_nil (distinct_withField distinct)]
  have looked : policy.schema.lookup definition.family definition.field = some definition :=
    CapabilitySchema.lookup_eq_some.mpr ⟨member, rfl, rfl⟩
  constructor
  · rintro ⟨-, -, defined, bounded⟩
    obtain ⟨other, looked', fits⟩ := defined _ _ _ there
    rw [looked] at looked'
    cases looked'
    rw [quantity] at fits
    refine ⟨⟨of_decide_eq_true fits, bounded _ _ _ there⟩, fun family field m stated => ?_⟩
    obtain ⟨differs, stated⟩ := (states_withoutField distinct).mp stated
    exact bounded family field m (states.mpr (by rwa [if_neg differs]))
  · rintro ⟨⟨positive, within⟩, bounded⟩
    refine ⟨⟨_, _, _, there⟩, filled, fun family field value stated => ?_,
      fun family field m stated => ?_⟩
    · by_cases here : (family, field) = definition.place
      · rw [states, if_pos here] at stated
        subst stated
        cases here
        exact ⟨definition, looked, by rw [quantity]; exact decide_eq_true positive⟩
      · rw [states, if_neg here] at stated
        exact known.defined family field value stated
    · by_cases here : (family, field) = definition.place
      · rw [states, if_pos here] at stated
        cases stated
        rw [here]
        exact within
      · rw [states, if_neg here] at stated
        exact bounded family field m ((states_withoutField distinct).mpr ⟨here, stated⟩)

/-! ## Coherence -/

structure ExactAnswers (φ : Type) [Floats φ] (policy : ResolvedPolicy) (definition : ShapeField) :
    Prop where
  answers : ∀ shape : Document φ, PartialShape policy shape → ∃ values,
    policy.admissibleValues definition.path shape = .ok values ∧
      (∀ n, values.contains n = true ↔
        Completable policy (withField shape definition.place (.int n))) ∧
      ∀ threshold : ℚ,
        ((∀ n, values.atMost threshold = some n ↔
          IsGreatest {m : ℤ | values.contains m = true ∧ (m : ℚ) ≤ threshold} n) ∧
        (values.atMost threshold = none ↔
          ∀ m : ℤ, values.contains m = true → ¬(m : ℚ) ≤ threshold)) ∧
        (∀ n, values.atLeast threshold = some n ↔
          IsLeast {m : ℤ | values.contains m = true ∧ threshold ≤ (m : ℚ)} n) ∧
        (values.atLeast threshold = none ↔
          ∀ m : ℤ, values.contains m = true → ¬threshold ≤ (m : ℚ))

structure Choice where
  definition : ShapeField
  value : ℤ

/-- Quantities of the schema are fixed one after another, each to a value of the answer for the
shape so far. -/
inductive Fixes [Floats φ] (policy : ResolvedPolicy) : Document φ → List Choice → Document φ → Prop
  | done (shape : Document φ) : Fixes policy shape [] shape
  | fix {shape last : Document φ} {choice : Choice} {choices : List Choice}
      {values : AdmissibleValues} (member : choice.definition ∈ policy.schema.fields)
      (quantity : choice.definition.kind = .quantity)
      (answered : policy.admissibleValues choice.definition.path shape = .ok values)
      (chosen : values.contains choice.value = true)
      (rest : Fixes policy (withField shape choice.definition.place (.int choice.value)) choices
        last) :
      Fixes policy shape (choice :: choices) last

structure Coherent (φ : Type) [Floats φ] (policy : ResolvedPolicy) : Prop where
  exact : ∀ definition ∈ policy.schema.fields, definition.kind = .quantity →
    ExactAnswers φ policy definition
  admissible : ∀ shape : Document φ, Distinct shape →
    shapeProblems shape policy.schema.opened = [] →
      (policy.admissibilityProblems shape = [] ↔ Completable policy shape)
  fixing : ∀ (shape : Document φ) choices last, PartialShape policy shape →
    shape = .obj [] ∨ policy.admissibilityProblems shape = [] ∨ choices ≠ [] →
    Fixes policy shape choices last →
      (∀ definition ∈ policy.schema.fields, definition.kind = .quantity →
        ∃ values n, policy.admissibleValues definition.path last = .ok values ∧
          values.contains n = true) ∧
      (last ≠ .obj [] → policy.admissibilityProblems last = [])

structure Standing (policy : ResolvedPolicy) (shape : Document φ) : Prop where
  known : PartialShape policy shape
  bounded : policy.Bounded shape

theorem partialShape_empty : PartialShape policy (.obj [] : Document φ) :=
  ⟨⟨List.nodup_nil, fun _ none => absurd none List.not_mem_nil⟩, .inl rfl⟩

theorem standing_empty : Standing policy (.obj [] : Document φ) :=
  ⟨partialShape_empty, fun _ _ _ stated => absurd stated not_states_empty⟩

theorem standing_of_admissible (known : PartialShape policy shape)
    (admissible : policy.admissibilityProblems shape = []) : Standing policy shape :=
  ⟨known, ((admissibilityProblems_eq_nil known.distinct).mp admissible).2.2.2⟩

theorem Standing.admissible (standing : Standing policy shape) (some' : shape ≠ .obj []) :
    policy.admissibilityProblems shape = [] := by
  have distinct := standing.known.distinct
  obtain ⟨stated, filled, defined⟩ :=
    (shapeProblems_opened distinct).mp (standing.known.formed.resolve_left some')
  exact (admissibilityProblems_eq_nil distinct).mpr ⟨stated, filled, defined, standing.bounded⟩

theorem exists_answer (sound : policy.Sound) (known : PartialShape policy shape)
    (member : definition ∈ policy.schema.fields) (quantity : definition.kind = .quantity)
    (plain : '.'.toNat ∉ definition.family) : ∃ values,
      policy.admissibleValues definition.path shape = .ok values ∧ values.Sound ∧
        ∀ n, values.contains n = true ↔
          Completable policy (withField shape definition.place (.int n)) := by
  rcases admissibleValues_eq known (quantityPath_of_plain member quantity plain) with
    ⟨answered, bounded⟩ | ⟨answered, unbounded⟩
  · refine ⟨_, answered, leafValues_sound sound _, fun n => ?_⟩
    rw [contains_leafValues sound, completable_withField_iff known member quantity]
    exact (and_iff_left bounded).symm
  · refine ⟨_, answered, (fun low none => by cases none), fun n => ?_⟩
    rw [completable_withField_iff known member quantity]
    exact iff_of_false Bool.false_ne_true fun both => unbounded both.2

theorem standing_of_fix (sound : policy.Sound) (known : PartialShape policy shape)
    (member : definition ∈ policy.schema.fields) (quantity : definition.kind = .quantity)
    (plain : '.'.toNat ∉ definition.family) {values : AdmissibleValues}
    (answered : policy.admissibleValues definition.path shape = .ok values) {n : ℤ}
    (chosen : values.contains n = true) :
    Standing policy (withField shape definition.place (.int n)) := by
  obtain ⟨values', answered', -, completes⟩ := exists_answer sound known member quantity plain
  rw [answered] at answered'
  cases answered'
  have distinct := @distinct_withField _ shape definition.place known.distinct (.int n)
  have filled := @noEmptyFamily_withField _ shape definition.place known.distinct
    known.noEmptyFamily (.int n)
  have stated : States (withField shape definition.place (.int n)) definition.family
      definition.field (.int n) := (states_withField known.distinct).mpr (if_pos rfl ▸ rfl)
  have admissible := (completable_iff distinct ⟨_, _, _, stated⟩ filled).mp ((completes n).mp chosen)
  obtain ⟨stated, filled, defined, bounded⟩ := (admissibilityProblems_eq_nil distinct).mp admissible
  exact ⟨⟨distinct, .inr ((shapeProblems_opened distinct).mpr ⟨stated, filled, defined⟩)⟩, bounded⟩

theorem Fixes.standing (sound : policy.Sound)
    (plain : ∀ definition ∈ policy.schema.fields, definition.kind = .quantity →
      '.'.toNat ∉ definition.family) {last : Document φ} {choices : List Choice}
    (fixes : Fixes policy shape choices last) (known : PartialShape policy shape)
    (start : policy.Bounded shape ∨ choices ≠ []) : Standing policy last := by
  induction fixes with
  | done => exact ⟨known, start.resolve_right fun some' => some' rfl⟩
  | fix member quantity answered chosen _ ih =>
    have next := standing_of_fix sound known member quantity (plain _ member quantity) answered chosen
    exact ih next.known (.inl next.bounded)

theorem Standing.answer (sound : policy.Sound) (standing : Standing policy shape)
    (member : definition ∈ policy.schema.fields) (quantity : definition.kind = .quantity)
    (plain : '.'.toNat ∉ definition.family) : ∃ values n,
      policy.admissibleValues definition.path shape = .ok values ∧ values.contains n = true := by
  rcases admissibleValues_eq standing.known (quantityPath_of_plain member quantity plain) with
    ⟨answered, -⟩ | ⟨-, unbounded⟩
  · obtain ⟨n, inside⟩ := exists_leafValue sound definition.place
    exact ⟨_, n, answered, inside⟩
  · refine absurd (fun family field n stated => ?_) unbounded
    exact standing.bounded family field n
      ((states_withoutField standing.known.distinct).mp stated).2

theorem coherent_of_plain (sound : policy.Sound)
    (plain : ∀ definition ∈ policy.schema.fields, definition.kind = .quantity →
      '.'.toNat ∉ definition.family) : Coherent φ policy where
  exact definition member quantity := by
    refine ⟨fun shape known => ?_⟩
    obtain ⟨values, answered, ends, completes⟩ :=
      exists_answer sound known member quantity (plain definition member quantity)
    exact ⟨values, answered, completes, fun threshold =>
      ⟨AdmissibleValues.atMost_spec ends threshold, AdmissibleValues.atLeast_spec ends threshold⟩⟩
  admissible shape distinct formed := by
    obtain ⟨stated, filled, -⟩ := (shapeProblems_opened distinct).mp formed
    exact (completable_iff distinct stated filled).symm
  fixing shape choices last known start fixes := by
    have bounded : policy.Bounded shape ∨ choices ≠ [] := by
      rcases start with rfl | admissible | some'
      · exact .inl standing_empty.bounded
      · exact .inl (standing_of_admissible known admissible).bounded
      · exact .inr some'
    have standing := fixes.standing sound plain known bounded
    exact ⟨fun definition member quantity =>
      standing.answer sound member quantity (plain definition member quantity), standing.admissible⟩

theorem plain_of_coherent (coherent : Coherent φ policy)
    (member : definition ∈ policy.schema.fields) (quantity : definition.kind = .quantity) :
    '.'.toNat ∉ definition.family := by
  intro dotted
  obtain ⟨values, answered, -⟩ :=
    (coherent.exact definition member quantity).answers (.obj []) partialShape_empty
  obtain ⟨problems, refused⟩ := quantityPath_of_dotted (φ := φ) member dotted
  rw [ResolvedPolicy.admissibleValues, refused] at answered
  cases answered

end

def oneQuantity (family field : Text) (named : family ≠ [] ∧ field ≠ []) : CapabilitySchema where
  fields := [⟨family, field, .quantity, pathOf family field, false⟩]
  paths := List.nodup_singleton _
  flatNames := List.nodup_singleton _
  named := by
    intro definition inside
    rw [List.mem_singleton.mp inside]
    exact ⟨named.1, named.2, List.append_ne_nil_of_left_ne_nil named.1 _⟩

def oneToFour : Declaration where
  tier := points "listing"
  bounds := Dict.set Table.empty (points "gpu", points "count") ⟨some 1, some 4⟩
  sound := by
    intro item inside
    cases List.mem_singleton.mp inside
    exact ⟨.inl (Option.some_ne_none _), fun low same => by cases same; decide,
      fun high same => by cases same; decide⟩

def oneToFourPolicy : ResolvedPolicy where
  schema := oneQuantity (points "gpu") (points "count") ⟨List.cons_ne_nil _ _, List.cons_ne_nil _ _⟩
  leaves := Dict.set Table.empty (points "gpu", points "count")
    ⟨some 1, some (points "listing"), some 4, some (points "listing")⟩

/-- The policy without a bound, of a quantity whose family has a dot in its name. -/
def dottedPolicy : ResolvedPolicy where
  schema := oneQuantity (points "gpu.v2") (points "count")
    ⟨List.cons_ne_nil _ _, List.cons_ne_nil _ _⟩
  leaves := Table.empty

end ComputeMarket.Shapes
