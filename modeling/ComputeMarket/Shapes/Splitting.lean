import ComputeMarket.Shapes.Constraints

/-!
# Splitting a stated list

Every entry of a stated list is in one split: with the other entries of its base shape where that
is read, alone otherwise. A split carries a declaration where all its entries have readable
constraints and state the same ones, and then it is what each of them gives alone, whatever the
order of the list: `SplitsExactly`.

The entries are told by digests and by texts that join a family and a field with a dot, and a base
shape is encoded before it is digested. `split_listing_shapes_exact_iff` says of which lists that
fails.
-/

namespace ComputeMarket.Shapes

open Texts

variable {language : Language FloatNumber} {schema : Option CapabilitySchema} {tier : Text}

section

variable {entry : StatedEntry} {positions : List ℕ}

theorem split_of_none (unread : readBase schema entry.document = none) :
    (split language entry.document tier schema positions).baseShape = none ∧
    (split language entry.document tier schema positions).declaration = none ∧
    (split language entry.document tier schema positions).entries = positions := by
  unfold readBase at unread
  unfold split
  cases judged : baseShapeProblems schema (baseOf entry.document) with
  | nil =>
    rw [judged] at unread
    cases unread
  | cons problem problems => exact ⟨rfl, rfl, rfl⟩

/-- **What an entry gives alone.** -/
theorem split_of_some {families : Families} (read : readBase schema entry.document = some families) :
    (split language entry.document tier schema positions).baseShape = some families ∧
    ((split language entry.document tier schema positions).constraintProblems = [] ↔
      ReadableConstraints schema entry.document) ∧
    (ReadableConstraints schema entry.document →
      (split language entry.document tier schema positions).declaration =
        some (declarationOf entry.document tier)) := by
  obtain ⟨clear, rfl⟩ := readBase_eq_some.mp read
  have problems := @itemProblems_eq_nil _ language schema _ tier positions entry.orderly
  unfold split
  rw [clear]
  dsimp only
  refine ⟨rfl, problems, fun readable => ?_⟩
  rw [problems.mpr readable]

end

/-! ## Keys -/

variable {keyed : List (KeyedEntry FloatNumber)}

def keyOf (language : Language FloatNumber) (schema : Option CapabilitySchema)
    (raw : Document FloatNumber) : Option Text :=
  (readBase schema raw).map fun families => shapeDigestPrefix ++ language.sha256 (baseText families)

def EncodableEntry (schema : Option CapabilitySchema) (entry : StatedEntry) : Prop :=
  ∀ families, readBase schema entry.document = some families → EncodableBase families

theorem digestOf_eq_ok {entry : StatedEntry} {digest : Option Text} :
    digestOf language schema entry.document = .ok digest ↔
      EncodableEntry schema entry ∧ digest = keyOf language schema entry.document := by
  unfold EncodableEntry keyOf
  cases read : readBase schema entry.document with
  | none =>
    rw [digestOf_of_none read, Except.ok.injEq, eq_comm]
    exact (and_iff_right nofun).symm
  | some families =>
    rw [digestOf_of_some read]
    refine and_congr_left fun _ => ⟨fun encodable other same => ?_, fun all => all families rfl⟩
    cases same
    exact encodable

def keyedEntries (language : Language FloatNumber) (schema : Option CapabilitySchema)
    (entries : List StatedEntry) (start : ℕ) : List (KeyedEntry FloatNumber) :=
  (entries.zipIdx start).map fun placed =>
    ⟨placed.2, placed.1.document, keyOf language schema placed.1.document⟩

/-- **When a list has digests, and which.** -/
theorem keyedFrom_eq_ok {entries : List StatedEntry} {start : ℕ} :
    keyedFrom language schema start (entries.map StatedEntry.document) = .ok keyed ↔
      (∀ entry ∈ entries, EncodableEntry schema entry) ∧
        keyed = keyedEntries language schema entries start := by
  induction entries generalizing start keyed with
  | nil =>
    rw [List.map_nil, keyedFrom, Except.ok.injEq, eq_comm]
    exact (and_iff_right (List.forall_mem_nil _)).symm
  | cons entry rest ih =>
    rw [List.map_cons, keyedFrom, List.forall_mem_cons]
    cases digested : digestOf language schema entry.document with
    | error why =>
      refine iff_of_false nofun fun both => ?_
      rw [digestOf_eq_ok.mpr ⟨both.1.1, rfl⟩] at digested
      cases digested
    | ok digest =>
      obtain ⟨encodable, rfl⟩ := digestOf_eq_ok.mp digested
      dsimp only
      cases others : keyedFrom language schema (start + 1) (rest.map StatedEntry.document) with
      | error why =>
        refine iff_of_false nofun fun both => ?_
        rw [ih.mpr ⟨both.1.2, rfl⟩] at others
        cases others
      | ok keyedRest =>
        obtain ⟨encodables, rfl⟩ := ih.mp others
        constructor
        · intro same
          cases same
          exact ⟨⟨encodable, encodables⟩, rfl⟩
        · intro both
          rw [both.2]
          rfl

section

variable {entries : List StatedEntry}

theorem mem_keyedEntries {keyed : KeyedEntry FloatNumber} :
    keyed ∈ keyedEntries language schema entries 0 ↔
      ∃ entry, entries[keyed.position]? = some entry ∧ keyed.raw = entry.document ∧
        keyed.digest = keyOf language schema entry.document := by
  unfold keyedEntries
  rw [List.mem_map]
  constructor
  · intro found
    obtain ⟨placed, inside, rfl⟩ := found
    exact ⟨placed.1, List.mem_zipIdx_iff_getElem?.mp inside, rfl, rfl⟩
  · intro found
    obtain ⟨entry, placed, raw, digest⟩ := found
    obtain ⟨position, document, key⟩ := keyed
    obtain rfl : document = entry.document := raw
    obtain rfl : key = keyOf language schema entry.document := digest
    exact ⟨(entry, position), List.mem_zipIdx_iff_getElem?.mpr placed, rfl⟩

theorem positions_keyedEntries :
    (keyedEntries language schema entries 0).map KeyedEntry.position = List.range entries.length := by
  unfold keyedEntries
  rw [List.map_map, List.range_eq_range', ← List.zipIdx_map_snd 0 entries]
  rfl

theorem eq_of_position {first second : KeyedEntry FloatNumber}
    (inside : first ∈ keyedEntries language schema entries 0)
    (inside' : second ∈ keyedEntries language schema entries 0)
    (same : first.position = second.position) : first = second := by
  have distinct : ((keyedEntries language schema entries 0).map KeyedEntry.position).Nodup := by
    rw [positions_keyedEntries]
    exact List.nodup_range
  exact List.inj_on_of_nodup_map distinct inside inside' same

end

/-! ## Groups -/

def groupOf (keyed : List (KeyedEntry FloatNumber)) (entry : KeyedEntry FloatNumber) :
    List (KeyedEntry FloatNumber) :=
  match entry.digest with
  | none => [entry]
  | some digest => keyed.filter fun other => other.digest = some digest

theorem mem_groupOf {entry other : KeyedEntry FloatNumber} :
    other ∈ groupOf keyed entry ↔ entry.digest = none ∧ other = entry ∨
      entry.digest ≠ none ∧ other ∈ keyed ∧ other.digest = entry.digest := by
  unfold groupOf
  cases entry.digest with
  | none => simp
  | some digest => simp

theorem split_entries {raw : Document FloatNumber} {positions : List ℕ} :
    (split language raw tier schema positions).entries = positions := by
  unfold split
  split <;> rfl

theorem entries_splitFor {entry : KeyedEntry FloatNumber} :
    (splitFor language keyed tier schema entry).entries =
      (groupOf keyed entry).map KeyedEntry.position := by
  unfold splitFor groupOf
  cases entry.digest with
  | none => exact split_entries
  | some digest =>
    dsimp only
    unfold splitGroup
    dsimp only
    split <;> rfl

section

variable {entries : List StatedEntry}

theorem isFirst_iff {first : KeyedEntry FloatNumber}
    (inside : first ∈ keyedEntries language schema entries 0) :
    isFirst (keyedEntries language schema entries 0) first = true ↔ first.digest = none ∨
      (keyedEntries language schema entries 0).find?
        (fun other => other.digest = first.digest) = some first := by
  unfold isFirst
  rw [Bool.or_eq_true, Option.isNone_iff_eq_none]
  refine or_congr_right ?_
  cases found : (keyedEntries language schema entries 0).find?
      (fun other => other.digest = first.digest) with
  | none => exact iff_of_false Bool.false_ne_true nofun
  | some other =>
    rw [Option.any_some, decide_eq_true_eq, Option.some.injEq]
    constructor
    · exact eq_of_position (List.mem_of_find?_eq_some found) inside
    · intro same
      rw [same]

def headsOf (language : Language FloatNumber) (schema : Option CapabilitySchema)
    (entries : List StatedEntry) : List (KeyedEntry FloatNumber) :=
  (keyedEntries language schema entries 0).filter
    (isFirst (keyedEntries language schema entries 0))

theorem exists_head {other : KeyedEntry FloatNumber}
    (inside : other ∈ keyedEntries language schema entries 0) :
    ∃ head ∈ headsOf language schema entries,
      other ∈ groupOf (keyedEntries language schema entries 0) head := by
  by_cases keyless : other.digest = none
  · exact ⟨other, List.mem_filter.mpr ⟨inside, (isFirst_iff inside).mpr (.inl keyless)⟩,
      mem_groupOf.mpr (.inl ⟨keyless, rfl⟩)⟩
  · cases found : (keyedEntries language schema entries 0).find?
        (fun entry => entry.digest = other.digest) with
    | none =>
      have absent := List.find?_eq_none.mp found other inside
      simp at absent
    | some head =>
      have same : head.digest = other.digest := by simpa using List.find?_some found
      have present := List.mem_of_find?_eq_some found
      refine ⟨head, List.mem_filter.mpr ⟨present, (isFirst_iff present).mpr (.inr ?_)⟩,
        mem_groupOf.mpr (.inr ⟨same ▸ keyless, inside, same.symm⟩)⟩
      rw [same]
      exact found

theorem head_unique {head head' other : KeyedEntry FloatNumber}
    (isHead : head ∈ headsOf language schema entries)
    (isHead' : head' ∈ headsOf language schema entries)
    (inside : other ∈ groupOf (keyedEntries language schema entries 0) head)
    (inside' : other ∈ groupOf (keyedEntries language schema entries 0) head') : head = head' := by
  obtain ⟨present, first⟩ := List.mem_filter.mp isHead
  obtain ⟨present', first'⟩ := List.mem_filter.mp isHead'
  rcases mem_groupOf.mp inside with ⟨keyless, rfl⟩ | ⟨some', -, same⟩
  · rcases mem_groupOf.mp inside' with ⟨-, same⟩ | ⟨some', -, same'⟩
    · exact same
    · exact absurd (same'.symm.trans keyless) some'
  · rcases mem_groupOf.mp inside' with ⟨keyless, rfl⟩ | ⟨some'', -, same'⟩
    · exact absurd (same.symm.trans keyless) some'
    · have found := ((isFirst_iff present).mp first).resolve_left some'
      have found' := ((isFirst_iff present').mp first').resolve_left some''
      rw [← same, same', found'] at found
      exact (Option.some.inj found).symm

/-- **The groups of the heads are the entries.** -/
theorem flatMap_groupOf_perm :
    ((headsOf language schema entries).flatMap
      (groupOf (keyedEntries language schema entries 0))).Perm
        (keyedEntries language schema entries 0) := by
  have distinct : (keyedEntries language schema entries 0).Nodup := by
    have positions : ((keyedEntries language schema entries 0).map KeyedEntry.position).Nodup := by
      rw [positions_keyedEntries]
      exact List.nodup_range
    exact positions.of_map
  have heads : (headsOf language schema entries).Nodup := distinct.filter _
  refine (List.perm_ext_iff_of_nodup (List.nodup_flatMap.mpr ⟨fun head _ => ?_, ?_⟩) distinct).mpr
    fun other => ?_
  · unfold groupOf
    split
    · exact List.nodup_singleton _
    · exact distinct.filter _
  · refine heads.pairwise_of_forall_ne fun head isHead head' isHead' differ => ?_
    intro other inside inside'
    exact differ (head_unique isHead isHead' inside inside')
  · rw [List.mem_flatMap]
    constructor
    · intro found
      obtain ⟨head, isHead, inside⟩ := found
      rcases mem_groupOf.mp inside with ⟨-, rfl⟩ | ⟨-, present, -⟩
      · exact (List.mem_filter.mp isHead).1
      · exact present
    · exact exists_head

end

/-! ## One group -/

theorem dedup_length_eq_one {α β : Type} [DecidableEq β] {items : List α} {f : α → β}
    (filled : items ≠ []) :
    (items.map f).dedup.length = 1 ↔ ∀ first ∈ items, ∀ second ∈ items, f first = f second := by
  constructor
  · intro single first inside second inside'
    obtain ⟨value, only⟩ := List.length_eq_one_iff.mp single
    have member : ∀ item ∈ items, f item = value := by
      intro item inside
      have present := List.mem_dedup.mpr (List.mem_map_of_mem (f := f) inside)
      rw [only, List.mem_singleton] at present
      exact present
    rw [member first inside, member second inside']
  · intro same
    obtain ⟨head, inside⟩ := List.exists_mem_of_ne_nil _ filled
    have only : (items.map f).dedup.Perm [f head] := by
      refine (List.perm_ext_iff_of_nodup (List.nodup_dedup _) (List.nodup_singleton _)).mpr
        fun value => ?_
      rw [List.mem_dedup, List.mem_singleton, List.mem_map]
      constructor
      · intro found
        obtain ⟨item, present, rfl⟩ := found
        exact same item present head inside
      · intro isHead
        exact ⟨head, inside, isHead.symm⟩
    exact only.length_eq

/-- **What the entries of one base shape are split into.** -/
theorem splitGroup_spec {group : List (KeyedEntry FloatNumber)} {families : Families}
    (filled : group ≠ [])
    (each : ∀ keyed ∈ group, ∃ entry : StatedEntry, keyed.raw = entry.document ∧
      readBase schema entry.document = some families) :
    (splitGroup language group tier schema).baseShape = some families ∧
    ((∃ declaration, (splitGroup language group tier schema).declaration = some declaration) ↔
      (∀ keyed ∈ group, ReadableConstraints schema keyed.raw) ∧
        ∀ first ∈ group, ∀ second ∈ group,
          constraintSignature language first.raw = constraintSignature language second.raw) ∧
    ∀ declaration, (splitGroup language group tier schema).declaration = some declaration →
      ∃ first ∈ group, declaration = declarationOf first.raw tier := by
  obtain ⟨head, rest, rfl⟩ := List.exists_cons_of_ne_nil filled
  have single := dedup_length_eq_one (f := fun keyed : KeyedEntry FloatNumber =>
    constraintSignature language keyed.raw) filled
  obtain ⟨entry, isEntry, read⟩ := each head List.mem_cons_self
  have headSplit := @split_of_some language schema tier entry [head.position] _ read
  rw [← isEntry] at headSplit
  have own : ((head :: rest).map fun keyed =>
      split language keyed.raw tier schema [keyed.position]).flatMap
        ShapeSplit.constraintProblems = [] ↔
      ∀ keyed ∈ head :: rest, ReadableConstraints schema keyed.raw := by
    rw [List.flatMap_eq_nil_iff, List.forall_mem_map]
    refine forall₂_congr fun keyed inside => ?_
    obtain ⟨entry, isEntry, read⟩ := each keyed inside
    rw [isEntry]
    exact (split_of_some read).2.1
  unfold splitGroup
  dsimp only
  split
  next one =>
    cases problems : ((head :: rest).map fun keyed =>
        split language keyed.raw tier schema [keyed.position]).flatMap
          ShapeSplit.constraintProblems with
    | nil =>
      have readable := own.mp problems
      have declared := headSplit.2.2 (readable head List.mem_cons_self)
      refine ⟨headSplit.1, iff_of_true ⟨_, declared⟩ ⟨readable, single.mp one⟩, ?_⟩
      intro declaration same
      exact ⟨head, List.mem_cons_self, Option.some.inj (same.symm.trans declared)⟩
    | cons problem problems' =>
      refine ⟨headSplit.1, iff_of_false (fun found => ?_) (fun both => ?_), nofun⟩
      · obtain ⟨declaration, none⟩ := found
        cases none
      · rw [own.mpr both.1] at problems
        cases problems
  next more =>
    refine ⟨headSplit.1, iff_of_false (fun found => ?_) (fun both => ?_), nofun⟩
    · obtain ⟨declaration, none⟩ := found
      cases none
    · exact more (single.mpr both.2)

/-! ## Exactness -/

def Agreed (schema : Option CapabilitySchema) (entries : List StatedEntry) (families : Families) :
    Prop :=
  (∀ entry ∈ entries, readBase schema entry.document = some families →
    ReadableConstraints schema entry.document) ∧
  ∀ first ∈ entries, ∀ second ∈ entries, readBase schema first.document = some families →
    readBase schema second.document = some families →
      SameConstraints first.document second.document

def SameDeclaration (first second : Declaration) : Prop :=
  first.tier = second.tier ∧ ∀ place, first.bounds.get? place = second.bounds.get? place

/-- The splits partition the positions of the entries by their readable base shapes, and carry a
declaration where the entries of the base shape agree, which is what each of them gives alone. -/
structure ExactSplits (language : Language FloatNumber) (schema : Option CapabilitySchema) (tier : Text)
    (entries : List StatedEntry) (shapes : List (ShapeSplit FloatNumber)) : Prop where
  partition : (shapes.flatMap ShapeSplit.entries).Perm (List.range entries.length)
  unread : ∀ split ∈ shapes, split.baseShape = none → split.declaration = none ∧
    ∃ position entry, split.entries = [position] ∧ entries[position]? = some entry ∧
      readBase schema entry.document = none
  grouped : ∀ split ∈ shapes, ∀ families, split.baseShape = some families → split.entries ≠ [] ∧
    ∀ position entry, entries[position]? = some entry →
      (position ∈ split.entries ↔ readBase schema entry.document = some families)
  declared : ∀ split ∈ shapes, ∀ families, split.baseShape = some families →
    ((∃ declaration, split.declaration = some declaration) ↔ Agreed schema entries families)
  own : ∀ split ∈ shapes, ∀ declaration, split.declaration = some declaration →
    ∀ position ∈ split.entries, ∀ entry, entries[position]? = some entry →
      ∃ alone, (splitListingShape language entry.document tier schema).declaration = some alone ∧
        SameDeclaration alone declaration

def Declares (shapes : List (ShapeSplit FloatNumber)) (families : Families)
    (bounds : Place → Option StatedBounds) : Prop :=
  ∃ split ∈ shapes, split.baseShape = some families ∧
    ∃ declaration, split.declaration = some declaration ∧
      ∀ place, declaration.bounds.get? place = bounds place

/-- The list is split, exactly, and in any other order the same base shapes get the same
declarations. -/
def SplitsExactly (language : Language FloatNumber) (schema : Option CapabilitySchema) (tier : Text)
    (entries : List StatedEntry) : Prop :=
  ∃ shapes, splitListingShapes language (entries.map StatedEntry.document) tier schema = .ok shapes ∧
    ExactSplits language schema tier entries shapes ∧
    ∀ other : List StatedEntry, other.Perm entries → ∃ shapes',
      splitListingShapes language (other.map StatedEntry.document) tier schema = .ok shapes' ∧
        ∀ families bounds, Declares shapes' families bounds ↔ Declares shapes families bounds

/-- The list can be told apart by digests and paths: its readable base shapes are encoded, no two
of their texts share a digest, and no readable entries of one base shape state the same bounds under the
same paths of different fields. -/
structure Tellable (language : Language FloatNumber) (schema : Option CapabilitySchema)
    (entries : List StatedEntry) : Prop where
  encodable : ∀ entry ∈ entries, EncodableEntry schema entry
  apart : ∀ first ∈ entries, ∀ second ∈ entries, ∀ families families',
    readBase schema first.document = some families →
      readBase schema second.document = some families' →
        language.sha256 (baseText families) = language.sha256 (baseText families') →
          baseText families = baseText families'
  unambiguous : ∀ families,
    (∀ entry ∈ entries, readBase schema entry.document = some families →
      ReadableConstraints schema entry.document) →
    (∀ first ∈ entries, ∀ second ∈ entries, readBase schema first.document = some families →
      readBase schema second.document = some families →
        (pathBounds first.document).Perm (pathBounds second.document)) →
    Agreed schema entries families

theorem splitListingShapes_eq_ok {entries : List StatedEntry}
    {shapes : List (ShapeSplit FloatNumber)} :
    splitListingShapes language (entries.map StatedEntry.document) tier schema = .ok shapes ↔
      (∀ entry ∈ entries, EncodableEntry schema entry) ∧
        shapes = (headsOf language schema entries).map
          (splitFor language (keyedEntries language schema entries 0) tier schema) := by
  unfold splitListingShapes
  cases keyed : keyedFrom language schema 0 (entries.map StatedEntry.document) with
  | error why =>
    refine iff_of_false nofun fun both => ?_
    rw [keyedFrom_eq_ok.mpr ⟨both.1, rfl⟩] at keyed
    cases keyed
  | ok found =>
    obtain ⟨encodable, rfl⟩ := keyedFrom_eq_ok.mp keyed
    exact ⟨fun same => ⟨encodable, (Except.ok.inj same).symm⟩, fun both => congrArg _ both.2.symm⟩

section

variable {entries : List StatedEntry}

theorem keyOf_eq_none {raw : Document FloatNumber} :
    keyOf language schema raw = none ↔ readBase schema raw = none := Option.map_eq_none_iff

theorem mem_groupOf_iff
    (apart : ∀ first ∈ entries, ∀ second ∈ entries, ∀ families families',
      readBase schema first.document = some families →
        readBase schema second.document = some families' →
          language.sha256 (baseText families) = language.sha256 (baseText families') →
            families = families')
    {head : KeyedEntry FloatNumber} {entry : StatedEntry} {families : Families}
    (placed : entries[head.position]? = some entry)
    (digest : head.digest = keyOf language schema entry.document)
    (read : readBase schema entry.document = some families) {keyed : KeyedEntry FloatNumber} :
    keyed ∈ groupOf (keyedEntries language schema entries 0) head ↔
      ∃ other, entries[keyed.position]? = some other ∧ keyed.raw = other.document ∧
        keyed.digest = keyOf language schema other.document ∧
          readBase schema other.document = some families := by
  have key : head.digest = some (shapeDigestPrefix ++ language.sha256 (baseText families)) := by
    rw [digest, keyOf, read]
    rfl
  rw [mem_groupOf, key, mem_keyedEntries]
  constructor
  · intro found
    obtain ⟨none, -⟩ | ⟨-, ⟨other, there, raw, digest'⟩, same⟩ := found
    · cases none
    · refine ⟨other, there, raw, digest', ?_⟩
      rw [digest', keyOf] at same
      obtain ⟨families', read', same⟩ := Option.map_eq_some_iff.mp same
      rw [read', apart _ (List.mem_of_getElem? there) _ (List.mem_of_getElem? placed) _ _ read' read
        (List.append_cancel_left same)]
  · intro found
    obtain ⟨other, there, raw, digest', read'⟩ := found
    refine .inr ⟨Option.some_ne_none _, ⟨other, there, raw, digest'⟩, ?_⟩
    rw [digest', keyOf, read']
    rfl

def Alike (language : Language FloatNumber) (schema : Option CapabilitySchema)
    (entries : List StatedEntry) (families : Families) : Prop :=
  (∀ entry ∈ entries, readBase schema entry.document = some families →
    ReadableConstraints schema entry.document) ∧
  ∀ first ∈ entries, ∀ second ∈ entries, readBase schema first.document = some families →
    readBase schema second.document = some families →
      constraintSignature language first.document = constraintSignature language second.document

structure Grouped (language : Language FloatNumber) (schema : Option CapabilitySchema) (tier : Text)
    (entries : List StatedEntry) (families : Families) (split : ShapeSplit FloatNumber) : Prop where
  baseShape : split.baseShape = some families
  filled : split.entries ≠ []
  members : ∀ position entry, entries[position]? = some entry →
    (position ∈ split.entries ↔ readBase schema entry.document = some families)
  declared : (∃ declaration, split.declaration = some declaration) ↔
    Alike language schema entries families
  own : ∀ declaration, split.declaration = some declaration → ∃ first ∈ entries,
    readBase schema first.document = some families ∧ declaration = declarationOf first.document tier

section

variable (apart : ∀ first ∈ entries, ∀ second ∈ entries, ∀ families families',
  readBase schema first.document = some families →
    readBase schema second.document = some families' →
      language.sha256 (baseText families) = language.sha256 (baseText families') →
        families = families')

include apart

theorem grouped_of_head {head : KeyedEntry FloatNumber} {entry : StatedEntry} {families : Families}
    (placed : entries[head.position]? = some entry)
    (digest : head.digest = keyOf language schema entry.document)
    (read : readBase schema entry.document = some families) :
    Grouped language schema tier entries families
      (splitFor language (keyedEntries language schema entries 0) tier schema head) := by
  have group := fun {keyed} => @mem_groupOf_iff language schema entries apart head entry families
    placed digest read keyed
  have raw : ∀ {other : StatedEntry}, other ∈ entries →
      readBase schema other.document = some families →
        ∃ keyed ∈ groupOf (keyedEntries language schema entries 0) head,
          keyed.raw = other.document := by
    intro other inside read
    obtain ⟨position, there⟩ := List.mem_iff_getElem?.mp inside
    exact ⟨⟨position, other.document, _⟩, group.mpr ⟨other, there, rfl, rfl, read⟩, rfl⟩
  obtain ⟨first, isFirst, -⟩ := raw (List.mem_of_getElem? placed) read
  obtain ⟨baseShape, declared, own⟩ := @splitGroup_spec language schema tier
    (groupOf (keyedEntries language schema entries 0) head) families (List.ne_nil_of_mem isFirst)
      fun keyed inside => by
        obtain ⟨other, -, raw, -, read⟩ := group.mp inside
        exact ⟨other, raw, read⟩
  have whole : splitFor language (keyedEntries language schema entries 0) tier schema head =
      splitGroup language (groupOf (keyedEntries language schema entries 0) head) tier schema := by
    have key : head.digest = some (shapeDigestPrefix ++ language.sha256 (baseText families)) := by
      rw [digest, keyOf, read]
      rfl
    unfold splitFor groupOf
    rw [key]
  refine ⟨whole ▸ baseShape, ?_, fun position other there => ?_, ?_, ?_⟩
  · rw [entries_splitFor, ne_eq, List.map_eq_nil_iff]
    exact List.ne_nil_of_mem isFirst
  · rw [entries_splitFor, List.mem_map]
    constructor
    · intro found
      obtain ⟨keyed, inside, rfl⟩ := found
      obtain ⟨other', there', -, -, read⟩ := group.mp inside
      cases there.symm.trans there'
      exact read
    · intro read
      exact ⟨⟨position, other.document, _⟩, group.mpr ⟨other, there, rfl, rfl, read⟩, rfl⟩
  · rw [whole, declared]
    constructor
    · intro both
      refine ⟨fun other inside read => ?_, fun first inside second inside' read read' => ?_⟩
      · obtain ⟨keyed, present, same⟩ := raw inside read
        exact same ▸ both.1 keyed present
      · obtain ⟨keyed, present, same⟩ := raw inside read
        obtain ⟨keyed', present', same'⟩ := raw inside' read'
        rw [← same, ← same']
        exact both.2 keyed present keyed' present'
    · intro alike
      refine ⟨fun keyed present => ?_, fun keyed present keyed' present' => ?_⟩
      · obtain ⟨other, there, same, -, read⟩ := group.mp present
        rw [same]
        exact alike.1 other (List.mem_of_getElem? there) read
      · obtain ⟨other, there, same, -, read⟩ := group.mp present
        obtain ⟨other', there', same', -, read'⟩ := group.mp present'
        rw [same, same']
        exact alike.2 other (List.mem_of_getElem? there) other' (List.mem_of_getElem? there') read read'
  · intro declaration same
    rw [whole] at same
    obtain ⟨keyed, present, rfl⟩ := own declaration same
    obtain ⟨other, there, raw, -, read⟩ := group.mp present
    exact ⟨other, List.mem_of_getElem? there, read, by rw [raw]⟩

/-- **What the split of a first entry is.** -/
theorem head_cases {head : KeyedEntry FloatNumber}
    (isHead : head ∈ headsOf language schema entries) :
    ∃ entry, entries[head.position]? = some entry ∧
      ((readBase schema entry.document = none ∧
        splitFor language (keyedEntries language schema entries 0) tier schema head =
          split language entry.document tier schema [head.position]) ∨
      ∃ families, readBase schema entry.document = some families ∧
        Grouped language schema tier entries families
          (splitFor language (keyedEntries language schema entries 0) tier schema head)) := by
  obtain ⟨inside, -⟩ := List.mem_filter.mp isHead
  obtain ⟨entry, placed, raw, digest⟩ := mem_keyedEntries.mp inside
  refine ⟨entry, placed, ?_⟩
  cases read : readBase schema entry.document with
  | none =>
    refine .inl ⟨rfl, ?_⟩
    unfold splitFor
    rw [digest, keyOf_eq_none.mpr read, raw]
  | some families => exact .inr ⟨families, rfl, grouped_of_head apart placed digest read⟩

end

theorem Tellable.distinct (tellable : Tellable language schema entries) :
    ∀ first ∈ entries, ∀ second ∈ entries, ∀ families families',
      readBase schema first.document = some families →
        readBase schema second.document = some families' →
          language.sha256 (baseText families) = language.sha256 (baseText families') →
            families = families' := by
  intro first inside second inside' families families' read read' same
  exact baseText_inj (written_of_readBase read) (written_of_readBase read')
    (tellable.apart first inside second inside' families families' read read' same)

theorem Tellable.alike_iff (tellable : Tellable language schema entries) {families : Families} :
    Alike language schema entries families ↔ Agreed schema entries families := by
  constructor
  · intro alike
    refine tellable.unambiguous families alike.1 fun first inside second inside' read read' => ?_
    exact (constraintSignature_eq_iff first.orderly second.orderly (alike.1 first inside read)
      (alike.1 second inside' read')).mp (alike.2 first inside second inside' read read')
  · intro agreed
    refine ⟨agreed.1, fun first inside second inside' read read' => ?_⟩
    have readable := agreed.1 first inside read
    have readable' := agreed.1 second inside' read'
    exact (constraintSignature_eq_iff first.orderly second.orderly readable readable').mpr
      ((agreed.2 first inside second inside' read read').pathBounds_perm first.orderly
        second.orderly readable readable')

theorem sameDeclaration_of_agreed {families : Families} (agreed : Agreed schema entries families)
    {first second : StatedEntry} (inside : first ∈ entries) (inside' : second ∈ entries)
    (read : readBase schema first.document = some families)
    (read' : readBase schema second.document = some families) :
    SameDeclaration (declarationOf first.document tier) (declarationOf second.document tier) := by
  refine ⟨rfl, fun place => ?_⟩
  have members := (sameConstraints_iff first.orderly second.orderly (agreed.1 first inside read)
    (agreed.1 second inside' read')).mp (agreed.2 first inside second inside' read read')
  have found : ∀ {entry : StatedEntry} {bounds : StatedBounds},
      (declarationOf entry.document tier).bounds.get? place = some bounds ↔
        (place, bounds) ∈ constraintsOf entry.document := by
    intro entry bounds
    constructor
    · intro found
      exact Dict.mem_ofItems (Dict.get?_eq_some.mp found)
    · intro inside
      exact Dict.get?_ofItems (nodup_constraintsOf entry.orderly) inside
  exact Option.ext fun bounds => found.trans ((members _).trans found.symm)

/-- **A list that can be told apart is split exactly.** -/
theorem Tellable.exact (tellable : Tellable language schema entries) :
    ExactSplits language schema tier entries ((headsOf language schema entries).map
      (splitFor language (keyedEntries language schema entries 0) tier schema)) := by
  have heads := fun {head} => @head_cases language schema tier entries tellable.distinct head
  constructor
  · have perm := (@flatMap_groupOf_perm language schema entries).map KeyedEntry.position
    rw [positions_keyedEntries, List.map_flatMap] at perm
    rw [List.flatMap_map]
    simp only [entries_splitFor]
    exact perm
  · intro split inside none
    obtain ⟨head, isHead, rfl⟩ := List.mem_map.mp inside
    obtain ⟨entry, placed, ⟨unread, alone⟩ | ⟨families, read, grouped⟩⟩ := heads isHead
    · rw [alone]
      exact ⟨(split_of_none unread).2.1, _, entry, split_entries, placed, unread⟩
    · rw [grouped.baseShape] at none
      cases none
  · intro split inside families base
    obtain ⟨head, isHead, rfl⟩ := List.mem_map.mp inside
    obtain ⟨entry, placed, ⟨unread, alone⟩ | ⟨other, read, grouped⟩⟩ := heads isHead
    · rw [alone, (split_of_none unread).1] at base
      cases base
    · obtain rfl : other = families := Option.some.inj (grouped.baseShape.symm.trans base)
      exact ⟨grouped.filled, grouped.members⟩
  · intro split inside families base
    obtain ⟨head, isHead, rfl⟩ := List.mem_map.mp inside
    obtain ⟨entry, placed, ⟨unread, alone⟩ | ⟨other, read, grouped⟩⟩ := heads isHead
    · rw [alone, (split_of_none unread).1] at base
      cases base
    · obtain rfl : other = families := Option.some.inj (grouped.baseShape.symm.trans base)
      exact grouped.declared.trans tellable.alike_iff
  · intro split inside declaration declared position member entry there
    obtain ⟨head, isHead, rfl⟩ := List.mem_map.mp inside
    obtain ⟨first, placed, ⟨unread, alone⟩ | ⟨families, read, grouped⟩⟩ := heads isHead
    · rw [alone, (split_of_none unread).2.1] at declared
      cases declared
    · have agreed := tellable.alike_iff.mp (grouped.declared.mp ⟨declaration, declared⟩)
      obtain ⟨first, isFirst, read, rfl⟩ := grouped.own declaration declared
      have read' := (grouped.members position entry there).mp member
      have isEntry := List.mem_of_getElem? there
      exact ⟨_, (split_of_some read').2.2 (agreed.1 entry isEntry read'),
        sameDeclaration_of_agreed agreed isEntry isFirst read' read⟩

/-- **What a list that can be told apart declares.** -/
theorem Tellable.declares_iff (tellable : Tellable language schema entries) {families : Families}
    {bounds : Place → Option StatedBounds} :
    Declares ((headsOf language schema entries).map
      (splitFor language (keyedEntries language schema entries 0) tier schema)) families bounds ↔
    Agreed schema entries families ∧ ∃ entry ∈ entries,
      readBase schema entry.document = some families ∧
        ∀ place, (declarationOf entry.document tier).bounds.get? place = bounds place := by
  have exact' := @Tellable.exact language schema tier entries tellable
  constructor
  · intro declares
    obtain ⟨split, inside, base, declaration, declared, same⟩ := declares
    have agreed := (exact'.declared split inside families base).mp ⟨declaration, declared⟩
    obtain ⟨head, isHead, rfl⟩ := List.mem_map.mp inside
    obtain ⟨entry, placed, ⟨unread, alone⟩ | ⟨other, read, grouped⟩⟩ :=
      head_cases tellable.distinct isHead
    · rw [alone, (split_of_none unread).1] at base
      cases base
    · obtain rfl : other = families := Option.some.inj (grouped.baseShape.symm.trans base)
      obtain ⟨first, isFirst, read, rfl⟩ := grouped.own declaration declared
      exact ⟨agreed, first, isFirst, read, same⟩
  · intro both
    obtain ⟨agreed, entry, inside, read, same⟩ := both
    obtain ⟨position, there⟩ := List.mem_iff_getElem?.mp inside
    obtain ⟨head, isHead, member⟩ := @exists_head language schema entries
      ⟨position, entry.document, _⟩ (mem_keyedEntries.mpr ⟨entry, there, rfl, rfl⟩)
    have position' : position ∈
        (splitFor language (keyedEntries language schema entries 0) tier schema head).entries := by
      rw [entries_splitFor]
      exact List.mem_map_of_mem (f := KeyedEntry.position) member
    obtain ⟨first, placed, ⟨unread, alone⟩ | ⟨other, read', grouped⟩⟩ :=
      @head_cases language schema tier entries tellable.distinct head isHead
    · rw [alone, split_entries, List.mem_singleton] at position'
      subst position'
      cases there.symm.trans placed
      rw [unread] at read
      cases read
    · have same' := (grouped.members position entry there).mp position'
      obtain rfl : other = families := Option.some.inj (same'.symm.trans read)
      obtain ⟨declaration, declared⟩ := grouped.declared.mpr (tellable.alike_iff.mpr agreed)
      obtain ⟨first, isFirst, readFirst, rfl⟩ := grouped.own declaration declared
      have equal := @sameDeclaration_of_agreed schema tier entries _ agreed _ _ isFirst inside readFirst read
      exact ⟨_, List.mem_map_of_mem isHead, grouped.baseShape, _, declared, fun place =>
        (equal.2 place).trans (same place)⟩

theorem agreed_perm {other : List StatedEntry} (perm : other.Perm entries) {families : Families} :
    Agreed schema other families ↔ Agreed schema entries families := by
  unfold Agreed
  simp only [perm.mem_iff]

theorem Tellable.perm (tellable : Tellable language schema entries) {other : List StatedEntry}
    (perm : other.Perm entries) : Tellable language schema other := by
  obtain ⟨encodable, apart, unambiguous⟩ := tellable
  refine ⟨fun entry inside => encodable entry (perm.mem_iff.mp inside),
    fun first inside second inside' => apart first (perm.mem_iff.mp inside) second
      (perm.mem_iff.mp inside'), fun families readable same => ?_⟩
  rw [agreed_perm perm]
  simp only [perm.mem_iff] at readable same
  exact unambiguous families readable same

theorem ExactSplits.holding {shapes : List (ShapeSplit FloatNumber)}
    (exact' : ExactSplits language schema tier entries shapes) {split : ShapeSplit FloatNumber}
    (inside : split ∈ shapes) {position : ℕ} (member : position ∈ split.entries)
    {entry : StatedEntry} (there : entries[position]? = some entry) {families : Families}
    (read : readBase schema entry.document = some families) : split.baseShape = some families := by
  cases base : split.baseShape with
  | none =>
    obtain ⟨-, other, unread, only, there', none⟩ := exact'.unread split inside base
    rw [only, List.mem_singleton] at member
    subst member
    cases there.symm.trans there'
    rw [none] at read
    cases read
  | some other =>
    have same := ((exact'.grouped split inside other base).2 position entry there).mp member
    rw [← same, read]

/-- **A list that is split exactly can be told apart.** -/
theorem SplitsExactly.tellable (splits : SplitsExactly language schema tier entries) :
    Tellable language schema entries := by
  obtain ⟨shapes, done, exact', -⟩ := splits
  obtain ⟨encodable, rfl⟩ := splitListingShapes_eq_ok.mp done
  -- The split that an entry stands in, with the others of its key.
  have holding : ∀ {entry : StatedEntry}, entry ∈ entries → ∀ {families : Families},
      readBase schema entry.document = some families → ∃ head ∈ headsOf language schema entries,
        (splitFor language (keyedEntries language schema entries 0) tier schema head).baseShape =
          some families ∧ head.digest = keyOf language schema entry.document := by
    intro entry inside families read
    obtain ⟨position, there⟩ := List.mem_iff_getElem?.mp inside
    obtain ⟨head, isHead, member⟩ := @exists_head language schema entries
      ⟨position, entry.document, keyOf language schema entry.document⟩
      (mem_keyedEntries.mpr ⟨entry, there, rfl, rfl⟩)
    refine ⟨head, isHead, exact'.holding (List.mem_map_of_mem isHead) ?_ there read, ?_⟩
    · rw [entries_splitFor]
      exact List.mem_map_of_mem (f := KeyedEntry.position) member
    · rcases mem_groupOf.mp member with ⟨-, same⟩ | ⟨-, -, same⟩
      · exact (congrArg KeyedEntry.digest same).symm
      · exact same.symm
  have apart : ∀ first ∈ entries, ∀ second ∈ entries, ∀ families families',
      readBase schema first.document = some families →
        readBase schema second.document = some families' →
          language.sha256 (baseText families) = language.sha256 (baseText families') →
            families = families' := by
    intro first inside second inside' families families' read read' same
    obtain ⟨head, isHead, base, digest⟩ := holding inside read
    obtain ⟨head', isHead', base', digest'⟩ := holding inside' read'
    have keys : head.digest = head'.digest := by
      rw [digest, digest', keyOf, keyOf, read, read', Option.map_some, Option.map_some, same]
    have keyed : head.digest ≠ none := by
      rw [digest, ne_eq, keyOf_eq_none, read]
      exact Option.some_ne_none _
    obtain rfl : head = head' := head_unique isHead isHead'
      (mem_groupOf.mpr (.inr ⟨keyed, (List.mem_filter.mp isHead).1, rfl⟩))
      (mem_groupOf.mpr (.inr ⟨keys ▸ keyed, (List.mem_filter.mp isHead).1, keys⟩))
    exact Option.some.inj (base.symm.trans base')
  refine ⟨encodable, fun first inside second inside' families families' read read' same =>
    congrArg baseText (apart first inside second inside' families families' read read' same),
      fun families readable same => ?_⟩
  by_cases stated : ∃ entry ∈ entries, readBase schema entry.document = some families
  · obtain ⟨entry, inside, read⟩ := stated
    obtain ⟨head, isHead, base, -⟩ := holding inside read
    obtain ⟨first, placed, ⟨unread, alone⟩ | ⟨other, readFirst, grouped⟩⟩ :=
      @head_cases language schema tier entries apart head isHead
    · rw [alone, (split_of_none unread).1] at base
      cases base
    · obtain rfl : other = families := Option.some.inj (grouped.baseShape.symm.trans base)
      refine (exact'.declared _ (List.mem_map_of_mem isHead) other base).mp
        (grouped.declared.mpr ⟨readable, fun first inside second inside' read read' => ?_⟩)
      exact (constraintSignature_eq_iff first.orderly second.orderly (readable first inside read)
        (readable second inside' read')).mpr (same first inside second inside' read read')
  · exact ⟨readable, fun first inside _ _ read => absurd ⟨first, inside, read⟩ stated⟩

end

/-- The entry that a JSON reader makes of an object with the name `\ud800`. -/
def surrogateEntry : StatedEntry where
  document := .obj [([0xD800], .obj [(points "gpu", .int 1)])]
  orderly := by
    refine .obj (by decide) (List.forall_mem_singleton.mpr ?_)
    refine .obj (by decide) (List.forall_mem_singleton.mpr (.int ?_))
    exact Nat.one_lt_pow (by decide) (by decide)

/-- A language that shows integers and texts without quotes in them, and digests by the text. -/
def plainLanguage : Language FloatNumber where
  repr
    | .int n => intCode n
    | .str text => points "'" ++ text ++ points "'"
    | _ => []
  repr_int _ := rfl
  repr_min := rfl
  repr_max := rfl
  sha256 text := text

end ComputeMarket.Shapes
