import ComputeMarket.Site.Projections

/-!
# What a projection's digest tells

The encoding that is hashed tells the canonical records (`payload_inj`), and the tracker counts its
changes. The two projections do not depend on the order of the rows exactly where rows that they
take for one are one: rows of a pool under one identifier, and rows whose criteria have one key.
-/

namespace ComputeMarket.Site

open Texts Shapes

/-! ## Encodings tell canonical values -/

def valueMarks : Set ℕ := {','.toNat, ']'.toNat, '}'.toNat}

/-- The class of the code point that a value starts with. -/
def opening : Document Empty → ℕ
  | .null => 'n'.toNat
  | .bool b => if b then 't'.toNat else 'f'.toNat
  | .int _ => '0'.toNat
  | .float x => x.elim
  | .str _ => '"'.toNat
  | .list _ => '['.toNat
  | .obj _ => '{'.toNat

theorem starts (value : Document Empty) : ∃ point rest, dumps literal value = point :: rest ∧
    opening value = if point = '-'.toNat ∨ isDigit point = true then '0'.toNat else point := by
  cases value with
  | int n =>
    obtain ⟨point, rest, code⟩ := List.exists_cons_of_ne_nil (intCode_ne_nil n)
    exact ⟨point, rest, code, (if_pos (mem_intCode (code ▸ List.mem_cons_self))).symm⟩
  | float x => exact x.elim
  | bool b => cases b <;> exact ⟨_, _, rfl, rfl⟩
  | null | str _ | list _ | obj _ => exact ⟨_, _, rfl, rfl⟩

theorem opening_eq {first second : Document Empty} {rest rest' : Text}
    (same : dumps literal first ++ rest = dumps literal second ++ rest') :
    opening first = opening second := by
  obtain ⟨point, tail, code, opens⟩ := starts first
  obtain ⟨point', tail', code', opens'⟩ := starts second
  rw [code, code', List.cons_append, List.cons_append] at same
  rw [opens, opens', (List.cons.inj same).1]

theorem closing_ne_start (value : Document Empty) (rest : Text) :
    (dumps literal value ++ rest).head? ≠ some ']'.toNat := by
  obtain ⟨point, tail, code, opens⟩ := starts value
  rw [code]
  intro same
  cases Option.some.inj same
  cases value with
  | float x => exact x.elim
  | bool b => cases b <;> cases opens
  | null | int _ | str _ | list _ | obj _ => cases opens

theorem alike_of_opening {first second : Document Empty} (opens : opening first = opening second) :
    first = second ∨ (∃ n m, first = .int n ∧ second = .int m) ∨
      (∃ text text', first = .str text ∧ second = .str text') ∨
      (∃ items items', first = .list items ∧ second = .list items') ∨
        ∃ members members', first = .obj members ∧ second = .obj members' := by
  rcases first with _ | (_ | _) | n | x | text | items | members <;>
    rcases second with _ | (_ | _) | n' | x' | text' | items' | members' <;>
      first
        | exact .inl rfl
        | exact x.elim
        | exact x'.elim
        | exact .inr (.inl ⟨_, _, rfl, rfl⟩)
        | exact .inr (.inr (.inl ⟨_, _, rfl, rfl⟩))
        | exact .inr (.inr (.inr (.inl ⟨_, _, rfl, rfl⟩)))
        | exact .inr (.inr (.inr (.inr ⟨_, _, rfl, rfl⟩)))
        | cases opens

theorem dumpsItems_eq (items : List (Document Empty)) :
    dumpsItems literal items = items.map (dumps literal) := by
  induction items with
  | nil => rfl
  | cons item rest ih => rw [dumpsItems, ih, List.map_cons]

theorem dumpsMembers_eq (members : List (Text × Document Empty)) :
    dumpsMembers literal members =
      members.map fun member => (literal member.1 ++ [':'.toNat]) ++ dumps literal member.2 := by
  induction members with
  | nil => rfl
  | cons member rest ih =>
    rw [dumpsMembers, ih, List.map_cons, List.append_assoc, List.singleton_append]

theorem ints_ended : EndedBy valueMarks Set.univ intCode := by
  refine .of_clear (fun n _ point inside => ?_) fun _ _ _ _ same => intCode_inj same
  rcases mem_intCode inside with rfl | digit
  · simp [valueMarks]
  · rintro (rfl | rfl | rfl) <;> cases digit

variable {size : ℕ}

theorem smallItems {items : List (Document Empty)}
    (small : sizeOf (Document.list items) < size + 1) : ∀ item ∈ items, sizeOf item < size := by
  intro item inside
  have within := List.sizeOf_lt_of_mem inside
  rw [Document.list.sizeOf_spec] at small
  omega

theorem smallMembers {members : List (Text × Document Empty)}
    (small : sizeOf (Document.obj members) < size + 1) :
    ∀ member ∈ members, member.1 ∈ Set.univ ∧ sizeOf member.2 < size := by
  intro member inside
  have within := List.sizeOf_lt_of_mem inside
  have pair : sizeOf member = 1 + sizeOf member.1 + sizeOf member.2 := rfl
  rw [Document.obj.sizeOf_spec] at small
  exact ⟨trivial, by omega⟩

/-- **A canonical value in front of a mark tells itself.** -/
theorem dumps_ended (size : ℕ) :
    EndedBy valueMarks {value : Document Empty | sizeOf value < size} (dumps literal) := by
  induction size with
  | zero => exact fun _ small => absurd small (Nat.not_lt_zero _)
  | succ size ih =>
    have sequences := ih.closed ','.toNat ']'.toNat (by simp [valueMarks]) (by simp [valueMarks])
      (by decide) fun value _ rest => closing_ne_start value rest
    have pairs := (ih.after key_delimits).closed ','.toNat '}'.toNat (by simp [valueMarks])
      (by simp [valueMarks]) (by decide) fun member _ rest => by
        rw [literal]
        exact fun same => absurd (Option.some.inj same) (by decide)
    intro first small second small' mark isMark mark' isMark' rest rest' same
    obtain rfl | ⟨n, m, rfl, rfl⟩ | ⟨text, text', rfl, rfl⟩ | ⟨items, items', rfl, rfl⟩ |
      ⟨members, members', rfl, rfl⟩ := alike_of_opening (opening_eq same)
    · exact ⟨rfl, List.cons.inj (List.append_cancel_left same)⟩
    · obtain ⟨rfl, ends⟩ := ints_ended trivial trivial isMark isMark' same
      exact ⟨rfl, ends⟩
    · obtain ⟨rfl, ends⟩ := literal_delimits.endedBy valueMarks trivial trivial isMark isMark' same
      exact ⟨rfl, ends⟩
    · simp only [dumps, dumpsItems_eq] at same
      obtain ⟨rfl, ends⟩ := sequences.endedBy valueMarks (smallItems small) (smallItems small')
        isMark isMark' (List.cons.inj same).2
      exact ⟨rfl, ends⟩
    · simp only [dumps, dumpsMembers_eq] at same
      obtain ⟨rfl, ends⟩ := pairs.endedBy valueMarks (smallMembers small) (smallMembers small')
        isMark isMark' (List.cons.inj same).2
      exact ⟨rfl, ends⟩

/-- **What is hashed tells the canonical records.** -/
theorem payload_inj {first second : List Value} (same : payload first = payload second) :
    normalized first = normalized second := by
  have small : Document.list (normalized first) ∈ {value : Document Empty | sizeOf value <
      sizeOf (Document.list (normalized first)) + sizeOf (Document.list (normalized second)) + 1} :=
    Nat.lt_succ_of_le (Nat.le_add_right _ _)
  have small' : Document.list (normalized second) ∈ {value : Document Empty | sizeOf value <
      sizeOf (Document.list (normalized first)) + sizeOf (Document.list (normalized second)) + 1} :=
    Nat.lt_succ_of_le (Nat.le_add_left _ _)
  have comma : ','.toNat ∈ valueMarks := by simp [valueMarks]
  obtain ⟨values, -⟩ := dumps_ended _ small small' comma comma (congrArg (· ++ [','.toNat]) same)
  exact Document.list.inj values

section

variable {sha256 : Text → Text}

def tracked (sha256 : Text → Text) (history : List (List Value)) : ProjectionIdentity :=
  history.foldl (observe sha256) (newTracker sha256)

theorem tracked_digest (history : List (List Value)) :
    (tracked sha256 history).digest = canonicalDigest sha256 (history.getLast?.getD []) := by
  induction history using List.reverseRecOn with
  | nil => rfl
  | append_singleton history records ih =>
    rw [tracked, List.foldl_append, List.foldl_cons, List.foldl_nil, List.getLast?_concat,
      Option.getD_some]
    unfold observe
    split
    · rfl
    next same => exact (not_not.mp same).symm

/-- **The revision rises by one exactly where the encoded projection is another than before**, where
no two of the encodings share a hash. -/
theorem revision_tracked (history : List (List Value)) (records : List Value)
    (apart : Set.InjOn sha256 {text | ∃ observed ∈ [] :: records :: history, payload observed = text}) :
    (tracked sha256 (history ++ [records])).revision =
      (tracked sha256 history).revision +
        if payload records = payload (history.getLast?.getD []) then 0 else 1 := by
  have last : history.getLast?.getD [] ∈ [] :: records :: history := by
    cases ends : history.getLast? with
    | none => exact List.mem_cons_self
    | some observed =>
      exact List.mem_cons_of_mem _ (List.mem_cons_of_mem _ (List.mem_of_getLast? ends))
  rw [tracked, List.foldl_append, List.foldl_cons, List.foldl_nil, ← tracked, observe,
    tracked_digest]
  by_cases same : payload records = payload (history.getLast?.getD [])
  · have digests : canonicalDigest sha256 records =
        canonicalDigest sha256 (history.getLast?.getD []) := congrArg sha256 same
    rw [if_neg (not_not.mpr digests), if_pos same, Nat.add_zero]
  · rw [if_neg same, if_pos]
    intro digests
    exact same (apart ⟨records, List.mem_cons_of_mem _ List.mem_cons_self, rfl⟩ ⟨_, last, rfl⟩ digests)

end

/-! ## Rows in any order -/

section

variable {poolMetadata : Text → Option Members} {resources other : List ResourceRow}
  {resource first second : ResourceRow} {pool key : Text}

def inventory (resources : List ResourceRow) (pool : Text) : List (Text × Value) :=
  valuesOf (resources.filterMap poolEntry) pool

theorem foldl_append_singleton {α : Type} (items held : List α) :
    items.foldl (fun kept item => kept ++ [item]) held = held ++ items := by
  induction items generalizing held with
  | nil => exact (List.append_nil _).symm
  | cons item rest ih => rw [List.foldl_cons, ih, List.append_assoc, List.singleton_append]

theorem mem_pools {group : Text × List (Text × Value)} :
    group ∈ grouped (fun _ => []) (fun held row => held ++ [row]) (resources.filterMap poolEntry) ↔
      group.2 = inventory resources group.1 ∧ group.2 ≠ [] := by
  rw [mem_grouped, ← inventory, foldl_append_singleton, List.nil_append]
  constructor
  · rintro ⟨row, head, same⟩
    refine ⟨same.symm, ?_⟩
    rw [← same]
    rintro empty
    rw [empty] at head
    cases head
  · rintro ⟨same, some'⟩
    rw [same] at some'
    obtain ⟨row, rest, cut⟩ := List.exists_cons_of_ne_nil some'
    exact ⟨row, by rw [cut]; rfl, same.symm⟩

theorem mem_inventory {row : Text × Value} :
    row ∈ inventory resources pool ↔ ∃ resource ∈ resources, recordedPoolId resource = some pool ∧
      row = (resource.resource_id, projectedResource resource) := by
  simp only [inventory, valuesOf, List.mem_map, List.mem_filter, List.mem_filterMap, poolEntry,
    Option.map_eq_some_iff, decide_eq_true_eq]
  constructor
  · rintro ⟨_, ⟨⟨resource, inside, named, recorded, rfl⟩, rfl⟩, rfl⟩
    exact ⟨resource, inside, recorded, rfl⟩
  · rintro ⟨resource, inside, recorded, rfl⟩
    exact ⟨_, ⟨⟨resource, inside, pool, recorded, rfl⟩, rfl⟩, rfl⟩

theorem inventory_cons (recorded : recordedPoolId resource = some pool) :
    inventory (resource :: resources) pool =
      (resource.resource_id, projectedResource resource) :: inventory resources pool := by
  have entry : poolEntry resource = some (pool, resource.resource_id, projectedResource resource) := by
    rw [poolEntry, recorded, Option.map_some]
  simp [inventory, valuesOf, List.filterMap_cons_some entry]

theorem inventory_perm (perm : other.Perm resources) (pool : Text) :
    (inventory other pool).Perm (inventory resources pool) :=
  ((perm.filterMap _).filter _).map _

/-- Rows that name a pool and share an identifier in it are projected alike. -/
def OneOfEach (resources : List ResourceRow) : Prop :=
  ∀ first ∈ resources, ∀ second ∈ resources, ∀ pool, recordedPoolId first = some pool →
    recordedPoolId second = some pool → first.resource_id = second.resource_id →
      projectedResource first = projectedResource second

theorem sortMembers_inventory (alike : OneOfEach resources) (perm : other.Perm resources)
    (pool : Text) : sortMembers (inventory other pool) = sortMembers (inventory resources pool) := by
  refine sortMembers_perm (inventory_perm perm pool) fun row inside row' inside' same => ?_
  obtain ⟨resource, among, recorded, rfl⟩ := mem_inventory.mp inside
  obtain ⟨resource', among', recorded', rfl⟩ := mem_inventory.mp inside'
  have projected := alike resource (perm.mem_iff.mp among) resource' (perm.mem_iff.mp among') pool
    recorded recorded' same
  exact Prod.ext same projected

theorem resourcePoolProjection_perm (alike : OneOfEach resources) (perm : other.Perm resources) :
    resourcePoolProjection poolMetadata other = resourcePoolProjection poolMetadata resources := by
  have row : ∀ group : Text × List (Text × Value), poolRow poolMetadata group =
      poolRow poolMetadata (Prod.map id sortMembers group) := by
    intro group
    unfold poolRow
    have again : sortMembers (sortMembers group.2) = sortMembers group.2 :=
      (List.pairwise_insertionSort _ _).insertionSort_eq
    rw [Prod.map_fst, Prod.map_snd, again, id]
  have rows : ∀ rows, resourcePoolProjection poolMetadata rows =
      (sortMembers ((grouped (fun _ => []) (fun held row => held ++ [row])
        (rows.filterMap poolEntry)).map (Prod.map id sortMembers))).map (poolRow poolMetadata) := by
    intro rows
    rw [← map_sortMembers, List.map_map]
    exact List.map_congr_left fun group _ => row group
  have keys : ∀ rows : List ResourceRow, (((grouped (fun _ => []) (fun held row => held ++ [row])
      (rows.filterMap poolEntry)).map (Prod.map id sortMembers)).map Prod.fst).Nodup := by
    intro rows
    rw [List.map_map]
    exact nodup_keys_grouped
  have filled : ∀ pool, inventory other pool ≠ [] ↔ inventory resources pool ≠ [] := fun pool =>
    not_congr ⟨fun empty => (empty ▸ inventory_perm perm pool).nil_eq.symm,
      fun empty => (empty ▸ inventory_perm perm pool).eq_nil⟩
  rw [rows, rows, sortMembers_eq (keys other) (keys resources)]
  rintro ⟨pool, held⟩
  simp only [List.mem_map, Prod.exists, mem_pools, Prod.map_apply, id, Prod.mk.injEq]
  constructor
  · rintro ⟨_, _, ⟨rfl, some'⟩, rfl, rfl⟩
    exact ⟨_, _, ⟨rfl, (filled _).mp some'⟩, rfl, (sortMembers_inventory alike perm _).symm⟩
  · rintro ⟨_, _, ⟨rfl, some'⟩, rfl, rfl⟩
    exact ⟨_, _, ⟨rfl, (filled _).mpr some'⟩, rfl, sortMembers_inventory alike perm _⟩

def shownId : Value → Text
  | .obj ((_, .str id) :: _) => id
  | _ => []

/-- The first row of a pool under an identifier is told by the projection. -/
theorem head_of_projection
    (same : resourcePoolProjection poolMetadata (first :: resources) =
      resourcePoolProjection poolMetadata (second :: other))
    (recorded : recordedPoolId first = some pool) (recorded' : recordedPoolId second = some pool)
    (id : first.resource_id = second.resource_id) :
    projectedResource first = projectedResource second := by
  have listed : poolRow poolMetadata (pool, inventory (first :: resources) pool) ∈
      resourcePoolProjection poolMetadata (second :: other) := by
    rw [← same]
    exact List.mem_map_of_mem (mem_sortMembers.mpr
      (mem_pools.mpr ⟨rfl, inventory_cons recorded ▸ List.cons_ne_nil _ _⟩))
  obtain ⟨⟨pool', held⟩, inside, rows⟩ := List.mem_map.mp listed
  obtain ⟨held_eq, -⟩ := mem_pools.mp (mem_sortMembers.mp inside)
  dsimp only at held_eq
  subst held_eq
  have members := List.cons.inj (Document.obj.inj rows)
  obtain rfl : pool' = pool := Document.str.inj (Prod.mk.inj members.1).2
  have values := Document.list.inj (Prod.mk.inj (List.cons.inj members.2).1).2
  have under : ∀ rows, ((sortMembers (inventory rows pool')).map Prod.snd).filter
      (shownId · = first.resource_id) =
        ((inventory rows pool').filter (·.1 = first.resource_id)).map Prod.snd := by
    intro rows
    rw [← filter_sortMembers, List.filter_map]
    refine congrArg _ (List.filter_congr fun row inside => ?_)
    obtain ⟨resource, -, -, rfl⟩ := mem_inventory.mp (mem_sortMembers.mp inside)
    rfl
  have heads := congrArg (List.filter (shownId · = first.resource_id)) values
  rw [under, under, inventory_cons recorded, inventory_cons recorded',
    List.filter_cons_of_pos (by simp [id]), List.filter_cons_of_pos (by simp)] at heads
  exact (List.cons.inj heads).1.symm

/-! ## Groups -/

variable {sha256 : Text → Text} {group : Text × Members × ℕ}

def criteriaUnder (sha256 : Text → Text) (resources : List ResourceRow) (key : Text) :
    List Members :=
  valuesOf ((resources.filterMap criteria).map fun criteria =>
    (bucketKey sha256 criteria, criteria)) key

theorem mem_capacityGroups : group ∈ capacityGroups sha256 resources ↔
    (criteriaUnder sha256 resources group.1).head? = some group.2.1 ∧
      group.2.2 = (criteriaUnder sha256 resources group.1).length := by
  have counted : ∀ (rows : List Members) (start : Members) (count : ℕ),
      rows.foldl (fun group _ => (group.1, group.2 + 1)) (start, count) =
        (start, count + rows.length) := by
    intro rows
    induction rows with
    | nil => exact fun _ _ => rfl
    | cons row rest ih =>
      intro start count
      rw [List.foldl_cons, ih, List.length_cons, Nat.add_assoc, Nat.add_comm 1]
  obtain ⟨key, start, count⟩ := group
  rw [capacityGroups, mem_sortMembers, mem_grouped, ← criteriaUnder]
  simp only [counted, Nat.zero_add, Prod.mk.injEq]
  constructor
  · rintro ⟨_, head, rfl, rfl⟩
    exact ⟨head, rfl⟩
  · rintro ⟨head, rfl⟩
    exact ⟨_, head, rfl, rfl⟩

theorem mem_criteriaUnder {members : Members} : members ∈ criteriaUnder sha256 resources key ↔
    (∃ resource ∈ resources, criteria resource = some members) ∧ bucketKey sha256 members = key := by
  simp [criteriaUnder, valuesOf]

def OneOfEachKey (sha256 : Text → Text) (resources : List ResourceRow) : Prop :=
  ∀ first ∈ resources, ∀ second ∈ resources, ∀ members members', criteria first = some members →
    criteria second = some members' → bucketKey sha256 members = bucketKey sha256 members' →
      members = members'

theorem capacityGroups_perm (alike : OneOfEachKey sha256 resources) (perm : other.Perm resources) :
    capacityGroups sha256 other = capacityGroups sha256 resources := by
  have under : ∀ key, (criteriaUnder sha256 other key).Perm (criteriaUnder sha256 resources key) :=
    fun key => (((perm.filterMap _).map _).filter _).map _
  refine sortMembers_eq nodup_keys_grouped nodup_keys_grouped fun group => ?_
  rw [← mem_sortMembers, ← capacityGroups, mem_capacityGroups, ← mem_sortMembers, ← capacityGroups,
    mem_capacityGroups, (under group.1).length_eq]
  refine and_congr_left fun _ => ?_
  have same := under group.1
  cases rows : criteriaUnder sha256 other group.1 with
  | nil =>
    rw [rows] at same
    rw [List.nil_perm.mp same]
  | cons members rest =>
    cases rows' : criteriaUnder sha256 resources group.1 with
    | nil =>
      rw [rows, rows'] at same
      exact absurd same.eq_nil (List.cons_ne_nil _ _)
    | cons members' rest' =>
      obtain ⟨⟨resource, among, has⟩, key⟩ := mem_criteriaUnder.mp (rows ▸ List.mem_cons_self)
      obtain ⟨⟨resource', among', has'⟩, key'⟩ := mem_criteriaUnder.mp (rows' ▸ List.mem_cons_self)
      rw [List.head?_cons, List.head?_cons, alike resource (perm.mem_iff.mp among) resource' among'
        members members' has has' (key.trans key'.symm)]

/-- The criteria of the first row under a key are told by the projection. -/
theorem criteria_of_projection {members members' : Members}
    (same : capacityBucketProjection sha256 (first :: resources) =
      capacityBucketProjection sha256 (second :: other))
    (has : criteria first = some members) (has' : criteria second = some members')
    (keys : bucketKey sha256 members = bucketKey sha256 members') : members = members' := by
  have head : ∀ {resource members}, criteria resource = some members → ∀ rows,
      (criteriaUnder sha256 (resource :: rows) (bucketKey sha256 members)).head? = some members := by
    intro resource members has rows
    simp [criteriaUnder, valuesOf, List.filterMap_cons_some has]
  have listed : bucketRow (bucketKey sha256 members, members,
      (criteriaUnder sha256 (first :: resources) (bucketKey sha256 members)).length) ∈
        capacityBucketProjection sha256 (second :: other) := by
    rw [← same]
    exact List.mem_map_of_mem (mem_capacityGroups.mpr ⟨head has resources, rfl⟩)
  obtain ⟨⟨key, start, count⟩, inside, rows⟩ := List.mem_map.mp listed
  have shown := List.cons.inj (Document.obj.inj rows)
  obtain rfl : key = bucketKey sha256 members := Document.str.inj (Prod.mk.inj shown.1).2
  obtain ⟨starts, -⟩ := mem_capacityGroups.mp inside
  rw [keys, head has' other] at starts
  exact ((Option.some.inj starts).trans (List.append_inj_left' shown.2 rfl)).symm

/-- **The counts add up to the enabled rows that name a pool.** -/
theorem sum_counts (resources : List ResourceRow) :
    ((capacityGroups sha256 resources).map (·.2.2)).sum =
      resources.countP fun resource => resource.enabled && (recordedPoolId resource).isSome := by
  have sorted : ∀ groups : List (Text × Members × ℕ),
      ((sortMembers groups).map (·.2.2)).sum = (groups.map (·.2.2)).sum := fun groups =>
    ((List.perm_insertionSort _ groups).map _).sum_eq
  rw [capacityGroups, sorted, @sum_grouped _ _ _ _ _ Prod.snd (fun _ => rfl) fun _ _ => rfl,
    List.length_map, List.length_filterMap_eq_countP]
  refine List.countP_congr fun resource _ => ?_
  unfold criteria
  cases resource.enabled <;> simp

/-- The projections of the rows do not depend on their order, the counts of the buckets add up to the
enabled rows that name a pool, and encodings and revisions tell projections. -/
structure Faithful (sha256 : Text → Text) (poolMetadata : Text → Option Members)
    (resources : List ResourceRow) : Prop where
  pools : ∀ other : List ResourceRow, other.Perm resources →
    resourcePoolProjection poolMetadata other = resourcePoolProjection poolMetadata resources
  buckets : ∀ other : List ResourceRow, other.Perm resources →
    capacityBucketProjection sha256 other = capacityBucketProjection sha256 resources
  counts : ((capacityGroups sha256 resources).map (·.2.2)).sum =
    resources.countP fun resource => resource.enabled && (recordedPoolId resource).isSome
  encodings : ∀ first second, normalized first ≠ normalized second → payload first ≠ payload second
  revisions : ∀ history records,
    Set.InjOn sha256 {text | ∃ observed ∈ [] :: records :: history, payload observed = text} →
      (tracked sha256 (history ++ [records])).revision =
        (tracked sha256 history).revision +
          if payload records = payload (history.getLast?.getD []) then 0 else 1

theorem projections_faithful_iff (sha256 : Text → Text) (poolMetadata : Text → Option Members)
    (resources : List ResourceRow) :
    Faithful sha256 poolMetadata resources ↔
      OneOfEach resources ∧ OneOfEachKey sha256 resources := by
  have front : ∀ {resource}, resource ∈ resources → ∃ rest, (resource :: rest).Perm resources := by
    intro resource inside
    obtain ⟨before, behind, rfl⟩ := List.append_of_mem inside
    exact ⟨before ++ behind, List.perm_middle.symm⟩
  constructor
  · intro faithful
    constructor
    · intro first inside second inside' pool recorded recorded' id
      obtain ⟨rest, perm⟩ := front inside
      obtain ⟨rest', perm'⟩ := front inside'
      exact head_of_projection ((faithful.pools _ perm).trans (faithful.pools _ perm').symm) recorded
        recorded' id
    · intro first inside second inside' members members' has has' keys
      obtain ⟨rest, perm⟩ := front inside
      obtain ⟨rest', perm'⟩ := front inside'
      exact criteria_of_projection ((faithful.buckets _ perm).trans (faithful.buckets _ perm').symm)
        has has' keys
  · rintro ⟨each, eachKey⟩
    exact ⟨fun other perm => resourcePoolProjection_perm each perm,
      fun other perm => congrArg (List.map bucketRow) (capacityGroups_perm eachKey perm),
      sum_counts resources, fun _ _ differ same => differ (payload_inj same), revision_tracked⟩

end

def sizedRow (size : Value) : ResourceRow where
  resource_id := points "node"
  pool_id := some (points "pool")
  resource_type := .str (points "compute")
  resource_subtype := .null
  capacity := none
  attributes := some [(points "memory", size)]
  available := none
  publication_views := none
  publication_view_problems := none
  enabled := true

/-- The number 1.5, and the text "1.5". -/
def mixedSizes : List ResourceRow :=
  [sizedRow (.float (.float (.finite false 15 (-1) (by decide)))),
    { sizedRow (.str (points "1.5")) with resource_id := points "other" }]

/-- Whether the projected attributes show a memory size as a number. -/
def showsNumber : Value → Bool
  | .obj members =>
    match members.lookup (points "grouping_attributes") with
    | some (.obj [(_, .float _)]) => true
    | _ => false
  | _ => false

theorem mixed_sizes_depend_on_order :
    ¬Faithful (fun text => text) (fun _ => none) mixedSizes := by
  intro faithful
  have same := faithful.buckets mixedSizes.reverse (List.reverse_perm _)
  have shown := congrArg (List.map showsNumber) same
  revert shown
  decide +kernel

end ComputeMarket.Site
