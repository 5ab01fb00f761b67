import ComputeMarket.Shapes.Schema

/-!
# Flattening and its inverse

`flatten_shape` names the values of a shape by the flat names of a schema, quantities apart from
attributes; `unflatten_shape` builds the shape of such names again. Each refuses what the other
refuses (`Corresponds.accepted_iff`), and each undoes the other: `unflatten_flatten`,
`flatten_unflatten`.
-/

namespace ComputeMarket.Shapes

open Texts

variable {φ : Type}

def ofShape (shape : Shape φ) : Document φ :=
  .obj (shape.rows.map fun member => (member.1, .obj member.2.rows))

def ofFamilies (families : List (Text × List (Text × Document φ))) : Document φ :=
  .obj (families.map fun member => (member.1, .obj member.2))

/-- `canonical_shape` of a structurally valid shape. -/
def canonicalFamilies (shape : Document φ) : List (Text × List (Text × Document φ)) :=
  (sortMembers (membersOf shape)).map fun member => (member.1, sortMembers (membersOf member.2))

section

variable [Floats φ]

def canonicalShape (shape : Document φ) :
    Except (List (ShapeProblem φ)) (List (Text × List (Text × Document φ))) :=
  match shapeStructureProblems shape with
  | [] => .ok (canonicalFamilies shape)
  | problem :: problems => .error (problem :: problems)

/-! ## The two maps -/

structure FlatShape (φ : Type) where
  quantities : Dict Text (Document φ)
  attributes : Dict Text (Document φ)

def flatItem (schema : CapabilitySchema) (kind : FieldKind) (entry : Text × Text × Document φ) :
    Option (Text × Document φ) :=
  (schema.lookup entry.1 entry.2.1).bind fun definition =>
    if definition.kind = kind then some (definition.flatName, entry.2.2) else none

def flatItems (shape : Document φ) (schema : CapabilitySchema) (kind : FieldKind) :
    Dict Text (Document φ) :=
  Dict.ofItems ((entriesOf shape).filterMap (flatItem schema kind))

def flattenShape (shape : Document φ) (schema : CapabilitySchema) :
    Except (List (ShapeProblem φ)) (FlatShape φ) :=
  match shapeProblems shape schema with
  | [] => .ok ⟨flatItems shape schema .quantity, flatItems shape schema .attribute⟩
  | problem :: problems => .error (problem :: problems)

/-- `by_flat_name.get(flat_name)`, no two fields having one flat name. -/
def CapabilitySchema.byFlatName (schema : CapabilitySchema) (flatName : Text) :
    Option ShapeField :=
  schema.fields.find? fun definition => definition.flatName = flatName

structure FlatItem (φ : Type) where
  flatName : Text
  value : Document φ
  kind : FieldKind

def givenItems (quantities attributes : Dict Text (Document φ)) : List (FlatItem φ) :=
  quantities.rows.map (fun item => ⟨item.1, item.2, .quantity⟩) ++
    attributes.rows.map fun item => ⟨item.1, item.2, .attribute⟩

def flatProblems (schema : CapabilitySchema) (item : FlatItem φ) : List (ShapeProblem φ) :=
  match schema.byFlatName item.flatName with
  | none => [⟨item.flatName, .undefined⟩]
  | some definition =>
    if definition.kind = item.kind then []
    else [⟨item.flatName, .kind definition.kind item.kind⟩]

def placed (schema : CapabilitySchema) (item : FlatItem φ) :
    Option ((Text × Text) × Document φ) :=
  (schema.byFlatName item.flatName).bind fun definition =>
    if definition.kind = item.kind then
      some ((definition.family, definition.field), item.value)
    else none

/-- `shape.setdefault(family, {})[field] = value`. -/
def setField (shape : Shape φ) (place : Text × Text) (value : Document φ) : Shape φ :=
  shape.set place.1 ((shape.getD place.1 Table.empty).set place.2 value)

/-- What `unflatten_shape` builds, or what it refuses to place. -/
def assemble (quantities attributes : Dict Text (Document φ)) (schema : CapabilitySchema) :
    Except (List (ShapeProblem φ)) (Shape φ) :=
  let items := givenItems quantities attributes
  match items.flatMap (flatProblems schema) with
  | [] => .ok ((items.filterMap (placed schema)).foldl
      (fun shape item => setField shape item.1 item.2) Table.empty)
  | problem :: problems => .error (problem :: problems)

def unflattenShape (quantities attributes : Dict Text (Document φ)) (schema : CapabilitySchema) :
    Except (List (ShapeProblem φ)) (List (Text × List (Text × Document φ))) :=
  match assemble quantities attributes schema with
  | .error problems => .error problems
  | .ok shape =>
    match shapeProblems (ofShape shape) schema with
    | [] => canonicalShape (ofShape shape)
    | problem :: problems => .error (problem :: problems)

end

/-! ## Shapes that state the same -/

variable {first second : Document φ}

structure SameShape (first second : Document φ) : Prop where
  states : ∀ family field value,
    States first family field value ↔ States second family field value
  names : ∀ family, Names first family ↔ Names second family

theorem SameShape.symm (same : SameShape first second) :
    SameShape second first :=
  ⟨fun family field value => (same.states family field value).symm,
    fun family => (same.names family).symm⟩

theorem SameShape.trans {third : Document φ} (same : SameShape first second)
    (same' : SameShape second third) : SameShape first third :=
  ⟨fun family field value => (same.states family field value).trans (same'.states family field value),
    fun family => (same.names family).trans (same'.names family)⟩

theorem membersOf_obj (members : List (Text × Document φ)) :
    membersOf (.obj members) = members := rfl

section Families

variable {families : List (Text × List (Text × Document φ))}

theorem states_ofFamilies {family field : Text} {value : Document φ} :
    States (ofFamilies families) family field value ↔
      ∃ fields, (family, fields) ∈ families ∧ (field, value) ∈ fields := by
  rw [states_iff, ofFamilies, membersOf_obj]
  constructor
  · rintro ⟨document, inside, member⟩
    obtain ⟨⟨name, fields⟩, present, same⟩ := List.mem_map.mp inside
    cases same
    exact ⟨fields, present, member⟩
  · rintro ⟨fields, inside, member⟩
    exact ⟨.obj fields, List.mem_map.mpr ⟨_, inside, rfl⟩, member⟩

theorem names_ofFamilies {family : Text} :
    Names (ofFamilies families) family ↔ ∃ fields, (family, fields) ∈ families := by
  rw [Names, ofFamilies, membersOf_obj]
  constructor
  · rintro ⟨document, inside⟩
    obtain ⟨⟨name, fields⟩, present, same⟩ := List.mem_map.mp inside
    cases same
    exact ⟨fields, present⟩
  · rintro ⟨fields, inside⟩
    exact ⟨.obj fields, List.mem_map.mpr ⟨_, inside, rfl⟩⟩

theorem distinct_ofFamilies (keys : (families.map Prod.fst).Nodup)
    (fields : ∀ member ∈ families, (member.2.map Prod.fst).Nodup) :
    Distinct (ofFamilies families) := by
  constructor
  · rw [ofFamilies, membersOf_obj, List.map_map]
    exact keys
  · intro member inside
    obtain ⟨family, present, rfl⟩ := List.mem_map.mp inside
    exact fields family present

end Families

variable {shape : Document φ}

theorem sameShape_canonicalFamilies (shape : Document φ) :
    SameShape (ofFamilies (canonicalFamilies shape)) shape := by
  constructor
  · intro family field value
    rw [states_ofFamilies, states_iff]
    constructor
    · rintro ⟨fields, inside, member⟩
      obtain ⟨⟨name, document⟩, present, same⟩ := List.mem_map.mp inside
      cases same
      exact ⟨document, mem_sortMembers.mp present, mem_sortMembers.mp member⟩
    · rintro ⟨document, inside, member⟩
      exact ⟨_, List.mem_map.mpr ⟨_, mem_sortMembers.mpr inside, rfl⟩, mem_sortMembers.mpr member⟩
  · intro family
    rw [names_ofFamilies]
    constructor
    · rintro ⟨fields, inside⟩
      obtain ⟨⟨name, document⟩, present, same⟩ := List.mem_map.mp inside
      cases same
      exact ⟨document, mem_sortMembers.mp present⟩
    · rintro ⟨document, inside⟩
      exact ⟨_, List.mem_map.mpr ⟨_, mem_sortMembers.mpr inside, rfl⟩⟩

theorem distinct_canonicalFamilies (distinct : Distinct shape) :
    Distinct (ofFamilies (canonicalFamilies shape)) := by
  refine distinct_ofFamilies ?_ ?_
  · rw [canonicalFamilies, List.map_map]
    exact nodup_keys_sortMembers distinct.families
  · intro member inside
    obtain ⟨family, present, rfl⟩ := List.mem_map.mp inside
    exact nodup_keys_sortMembers (distinct.fields family (mem_sortMembers.mp present))

/-- **The canonical form tells the shape, whatever the order it was stated in.** -/
theorem canonicalFamilies_eq_iff (distinct : Distinct first) (distinct' : Distinct second) :
    canonicalFamilies first = canonicalFamilies second ↔ SameShape first second := by
  constructor
  · intro same
    have back := sameShape_canonicalFamilies first
    rw [same] at back
    exact back.symm.trans (sameShape_canonicalFamilies second)
  · intro same
    have fields : ∀ {first second : Document φ}, Distinct first → Distinct second →
        SameShape first second → ∀ member ∈ canonicalFamilies first,
          member ∈ canonicalFamilies second := by
      rintro first second distinct distinct' same ⟨family, fields⟩ inside
      obtain ⟨⟨name, document⟩, present, here⟩ := List.mem_map.mp inside
      cases here
      have present := mem_sortMembers.mp present
      obtain ⟨document', present'⟩ := (same.names name).mp ⟨document, present⟩
      refine List.mem_map.mpr ⟨(name, document'), mem_sortMembers.mpr present', ?_⟩
      refine congrArg (Prod.mk name) (sortMembers_eq (distinct'.fields _ present')
        (distinct.fields _ present) ?_)
      rintro ⟨field, value⟩
      rw [← distinct.states_under present, ← distinct'.states_under present', same.states]
    have sorted : ∀ shape : Document φ, (canonicalFamilies shape).Pairwise
        fun member other => member.1 ≤ other.1 := by
      intro shape
      rw [canonicalFamilies, List.pairwise_map]
      exact List.pairwise_insertionSort _ _
    have keys : ∀ {shape : Document φ}, Distinct shape →
        ((canonicalFamilies shape).map Prod.fst).Nodup := by
      intro shape distinct
      rw [canonicalFamilies, List.map_map]
      exact nodup_keys_sortMembers distinct.families
    exact members_ext (keys distinct) (keys distinct') (sorted first) (sorted second) fun member =>
      ⟨fields distinct distinct' same member, fields distinct' distinct same.symm member⟩

/-! ## Built shapes -/

def valueAt (shape : Shape φ) (place : Text × Text) : Option (Document φ) :=
  (shape.get? place.1).bind fun fields => fields.get? place.2

theorem states_ofShape {shape : Shape φ} {family field : Text} {value : Document φ} :
    States (ofShape shape) family field value ↔ valueAt shape (family, field) = some value := by
  have families : ofShape shape = ofFamilies (shape.rows.map fun member => (member.1, member.2.rows)) := by
    rw [ofShape, ofFamilies, List.map_map]
    rfl
  rw [families, states_ofFamilies, valueAt, Option.bind_eq_some_iff]
  constructor
  · rintro ⟨rows, inside, member⟩
    obtain ⟨⟨name, fields⟩, present, same⟩ := List.mem_map.mp inside
    cases same
    exact ⟨fields, Dict.get?_eq_some.mpr present, Dict.get?_eq_some.mpr member⟩
  · rintro ⟨fields, found, found'⟩
    exact ⟨fields.rows, List.mem_map.mpr ⟨_, Dict.get?_eq_some.mp found, rfl⟩,
      Dict.get?_eq_some.mp found'⟩

theorem names_ofShape {shape : Shape φ} {family : Text} :
    Names (ofShape shape) family ↔ ∃ fields, shape.get? family = some fields := by
  constructor
  · rintro ⟨document, inside⟩
    obtain ⟨⟨name, fields⟩, present, same⟩ := List.mem_map.mp inside
    cases same
    exact ⟨fields, Dict.get?_eq_some.mpr present⟩
  · rintro ⟨fields, found⟩
    exact ⟨_, List.mem_map.mpr ⟨_, Dict.get?_eq_some.mp found, rfl⟩⟩

theorem distinct_ofShape (shape : Shape φ) : Distinct (ofShape shape) := by
  have families : ofShape shape = ofFamilies (shape.rows.map fun member => (member.1, member.2.rows)) := by
    rw [ofShape, ofFamilies, List.map_map]
    rfl
  rw [families]
  refine distinct_ofFamilies ?_ ?_
  · rw [List.map_map]
    exact shape.distinct
  · intro member inside
    obtain ⟨family, -, rfl⟩ := List.mem_map.mp inside
    exact family.2.distinct

theorem valueAt_setField (shape : Shape φ) (place : Text × Text) (value : Document φ)
    (other : Text × Text) : valueAt (setField shape place value) other =
      if other = place then some value else valueAt shape other := by
  obtain ⟨family, field⟩ := place
  obtain ⟨family', field'⟩ := other
  unfold valueAt setField
  rw [Dict.get?_set]
  by_cases sameFamily : family' = family
  · subst sameFamily
    rw [if_pos rfl, Option.bind_some, Dict.get?_set]
    by_cases sameField : field' = field
    · subst sameField
      rw [if_pos rfl, if_pos rfl]
    · rw [if_neg sameField, if_neg fun same => sameField (congrArg Prod.snd same), Dict.getD]
      cases shape.get? family' with
      | none => rfl
      | some fields => rfl
  · rw [if_neg sameFamily, if_neg fun same => sameFamily (congrArg Prod.fst same)]

def Filled (shape : Shape φ) : Prop :=
  ∀ family fields, shape.get? family = some fields → ∃ field value, fields.get? field = some value

theorem Filled.setField {shape : Shape φ} (filled : Filled shape) (place : Text × Text)
    (value : Document φ) : Filled (setField shape place value) := by
  intro family fields found
  rw [Shapes.setField, Dict.get?_set] at found
  split at found
  · cases found
    exact ⟨place.2, value, by rw [Dict.get?_set, if_pos rfl]⟩
  · exact filled family fields found

theorem filled_foldl (items : List ((Text × Text) × Document φ)) :
    Filled (items.foldl (fun shape item => setField shape item.1 item.2) Table.empty) := by
  induction items using List.reverseRecOn with
  | nil =>
    intro family fields found
    cases found
  | append_singleton items item ih =>
    rw [List.foldl_append]
    exact ih.setField item.1 item.2

/-! ## What flattening names -/

variable {schema : CapabilitySchema} {definition : ShapeField}

def side (quantities attributes : Dict Text (Document φ)) : FieldKind → Dict Text (Document φ)
  | .quantity => quantities
  | .attribute => attributes

def Given (quantities attributes : Dict Text (Document φ)) (definition : ShapeField)
    (value : Document φ) : Prop :=
  (side quantities attributes definition.kind).get? definition.flatName = some value

theorem get?_ofItems {items : List (Text × Document φ)}
    (single : ∀ key value value', (key, value) ∈ items → (key, value') ∈ items → value = value')
    {key : Text} {value : Document φ} :
    (Dict.ofItems items).get? key = some value ↔ (key, value) ∈ items :=
  get_foldl_put (fun dict key value other => Dict.get?_set dict key other value)
    (fun _ => rfl) single

theorem mem_flatItem {kind : FieldKind} {name : Text} {value : Document φ} :
    (name, value) ∈ (entriesOf shape).filterMap (flatItem schema kind) ↔
      ∃ definition ∈ schema.fields, definition.kind = kind ∧ definition.flatName = name ∧
        States shape definition.family definition.field value := by
  rw [List.mem_filterMap]
  constructor
  · rintro ⟨⟨family, field, stated⟩, inside, found⟩
    obtain ⟨definition, looked, found⟩ := Option.bind_eq_some_iff.mp found
    obtain ⟨member, rfl, rfl⟩ := CapabilitySchema.lookup_eq_some.mp looked
    split at found
    next same =>
      cases found
      exact ⟨definition, member, same, rfl, inside⟩
    next => cases found
  · rintro ⟨definition, member, rfl, rfl, stated⟩
    refine ⟨_, stated, ?_⟩
    rw [flatItem, CapabilitySchema.lookup_eq_some.mpr ⟨member, rfl, rfl⟩, Option.bind_some,
      if_pos rfl]

theorem get?_flatItems {kind : FieldKind} (distinct : Distinct shape) {name : Text}
    {value : Document φ} :
    (flatItems shape schema kind).get? name = some value ↔
      ∃ definition ∈ schema.fields, definition.kind = kind ∧ definition.flatName = name ∧
        States shape definition.family definition.field value := by
  rw [flatItems, get?_ofItems, mem_flatItem]
  intro key value value' inside inside'
  obtain ⟨definition, member, -, here, stated⟩ := mem_flatItem.mp inside
  obtain ⟨definition', member', -, here', stated'⟩ := mem_flatItem.mp inside'
  have same := List.inj_on_of_nodup_map schema.flatNames member member' (here.trans here'.symm)
  subst same
  exact distinct.value_unique stated stated'

theorem given_flatItems (distinct : Distinct shape) (member : definition ∈ schema.fields)
    {value : Document φ} :
    Given (flatItems shape schema .quantity) (flatItems shape schema .attribute) definition value ↔
      States shape definition.family definition.field value := by
  have found : ∀ kind, side (flatItems shape schema .quantity) (flatItems shape schema .attribute)
      kind = flatItems shape schema kind := by
    intro kind
    cases kind <;> rfl
  rw [Given, found, get?_flatItems distinct]
  constructor
  · rintro ⟨other, inside, -, sameName, stated⟩
    have same := List.inj_on_of_nodup_map schema.flatNames inside member sameName
    subst same
    exact stated
  · intro stated
    exact ⟨definition, member, rfl, rfl, stated⟩

/-! ## What is assembled -/

section

variable {schema : CapabilitySchema} {quantities attributes : Dict Text (Document φ)}

theorem CapabilitySchema.byFlatName_eq_some {flatName : Text} :
    schema.byFlatName flatName = some definition ↔
      definition ∈ schema.fields ∧ definition.flatName = flatName := by
  unfold byFlatName
  constructor
  · intro found
    exact ⟨List.mem_of_find?_eq_some found, by simpa using List.find?_some found⟩
  · rintro ⟨inside, rfl⟩
    cases found : schema.fields.find? fun candidate =>
        candidate.flatName = definition.flatName with
    | none =>
      have absent := List.find?_eq_none.mp found _ inside
      simp at absent
    | some other =>
      have same : other.flatName = definition.flatName := by simpa using List.find?_some found
      exact congrArg some (List.inj_on_of_nodup_map schema.flatNames
        (List.mem_of_find?_eq_some found) inside same)

theorem mem_givenItems {item : FlatItem φ} : item ∈ givenItems quantities attributes ↔
    (side quantities attributes item.kind).get? item.flatName = some item.value := by
  obtain ⟨name, value, kind⟩ := item
  rw [givenItems, List.mem_append, List.mem_map, List.mem_map, Dict.get?_eq_some]
  rcases kind with _ | _
  · constructor
    · rintro (⟨member, inside, same⟩ | ⟨member, inside, same⟩)
      · cases same
        exact inside
      · cases same
    · exact fun inside => .inl ⟨(name, value), inside, rfl⟩
  · constructor
    · rintro (⟨member, inside, same⟩ | ⟨member, inside, same⟩)
      · cases same
      · cases same
        exact inside
    · exact fun inside => .inr ⟨(name, value), inside, rfl⟩

theorem given_iff {value : Document φ} :
    Given quantities attributes definition value ↔
      ⟨definition.flatName, value, definition.kind⟩ ∈ givenItems quantities attributes := by
  rw [mem_givenItems]
  rfl

theorem Given.unique {value other : Document φ}
    (given : Given quantities attributes definition value)
    (given' : Given quantities attributes definition other) : value = other :=
  Option.some.inj (given.symm.trans given')

theorem mem_placed {place : Text × Text} {value : Document φ} :
    (place, value) ∈ (givenItems quantities attributes).filterMap (placed schema) ↔
      ∃ definition ∈ schema.fields, (definition.family, definition.field) = place ∧
        Given quantities attributes definition value := by
  rw [List.mem_filterMap]
  constructor
  · rintro ⟨⟨name, given, kind⟩, inside, found⟩
    obtain ⟨definition, looked, found⟩ := Option.bind_eq_some_iff.mp found
    obtain ⟨member, rfl⟩ := CapabilitySchema.byFlatName_eq_some.mp looked
    split at found
    next same =>
      cases found
      subst same
      exact ⟨definition, member, rfl, given_iff.mpr inside⟩
    next => cases found
  · rintro ⟨definition, member, rfl, given⟩
    refine ⟨_, given_iff.mp given, ?_⟩
    rw [placed, CapabilitySchema.byFlatName_eq_some.mpr ⟨member, rfl⟩, Option.bind_some, if_pos rfl]

theorem flatProblems_eq_nil {item : FlatItem φ} : flatProblems schema item = [] ↔
    ∃ definition ∈ schema.fields, definition.flatName = item.flatName ∧
      definition.kind = item.kind := by
  unfold flatProblems
  cases found : schema.byFlatName item.flatName with
  | none =>
    refine iff_of_false (List.cons_ne_nil _ _) ?_
    rintro ⟨definition, member, same, -⟩
    rw [CapabilitySchema.byFlatName_eq_some.mpr ⟨member, same⟩] at found
    cases found
  | some definition =>
    obtain ⟨member, same⟩ := CapabilitySchema.byFlatName_eq_some.mp found
    dsimp only
    split
    next sameKind => exact iff_of_true rfl ⟨definition, member, same, sameKind⟩
    next other =>
    refine iff_of_false (List.cons_ne_nil _ _) ?_
    rintro ⟨definition', member', same', sameKind⟩
    have one := List.inj_on_of_nodup_map schema.flatNames member member' (same.trans same'.symm)
    subst one
    exact other sameKind

def Known (schema : CapabilitySchema) (quantities attributes : Dict Text (Document φ)) : Prop :=
  ∀ item ∈ givenItems quantities attributes, ∃ definition ∈ schema.fields,
    definition.flatName = item.flatName ∧ definition.kind = item.kind

theorem assemble_eq_ok {shape : Shape φ}
    (done : assemble quantities attributes schema = .ok shape) :
    Known schema quantities attributes ∧ Filled shape ∧ ∀ place value,
      valueAt shape place = some value ↔ ∃ definition ∈ schema.fields,
        (definition.family, definition.field) = place ∧
          Given quantities attributes definition value := by
  unfold assemble at done
  dsimp only at done
  split at done
  next none =>
    cases done
    refine ⟨?_, filled_foldl _, fun place value => ?_⟩
    · intro item inside
      exact flatProblems_eq_nil.mp (List.flatMap_eq_nil_iff.mp none item inside)
    · rw [get_foldl_put valueAt_setField (fun _ => rfl), mem_placed]
      intro place value value' inside inside'
      obtain ⟨definition, member, here, given⟩ := mem_placed.mp inside
      obtain ⟨definition', member', here', given'⟩ := mem_placed.mp inside'
      have places := here.trans here'.symm
      have same := List.inj_on_of_nodup_map schema.paths member member'
        (pathOf_inj (congrArg Prod.fst places) (congrArg Prod.snd places))
      subst same
      exact given.unique given'
  next => cases done

theorem exists_assemble (known : Known schema quantities attributes) :
    ∃ shape, assemble quantities attributes schema = .ok shape := by
  unfold assemble
  dsimp only
  split
  · exact ⟨_, rfl⟩
  next problem problems some' =>
  have none : (givenItems quantities attributes).flatMap (flatProblems schema) = [] :=
    List.flatMap_eq_nil_iff.mpr fun item inside => flatProblems_eq_nil.mpr (known item inside)
  rw [none] at some'
  cases some'

end

/-! ## Each undoes the other -/

section

variable [Floats φ] {schema : CapabilitySchema} {shape : Document φ} {flat : FlatShape φ}
    {families : List (Text × List (Text × Document φ))}
    {quantities attributes : Dict Text (Document φ)}

theorem flattenShape_eq_ok : flattenShape shape schema = .ok flat ↔
    shapeProblems shape schema = [] ∧
      flat = ⟨flatItems shape schema .quantity, flatItems shape schema .attribute⟩ := by
  unfold flattenShape
  split
  next none =>
    rw [none]
    exact ⟨fun same => ⟨rfl, by cases same; rfl⟩, fun ⟨_, same⟩ => by rw [same]⟩
  next problem problems some' =>
  rw [some']
  exact iff_of_false nofun fun both => List.cons_ne_nil _ _ both.1

theorem canonicalShape_eq_ok :
    canonicalShape shape = .ok families ↔
      shapeStructureProblems shape = [] ∧ families = canonicalFamilies shape := by
  unfold canonicalShape
  split
  next none =>
    rw [none]
    exact ⟨fun same => ⟨rfl, by cases same; rfl⟩, fun ⟨_, same⟩ => by rw [same]⟩
  next problem problems some' =>
  rw [some']
  exact iff_of_false nofun fun both => List.cons_ne_nil _ _ both.1

theorem unflattenShape_eq_ok :
    unflattenShape quantities attributes schema = .ok families ↔
      ∃ built, assemble quantities attributes schema = .ok built ∧
        shapeProblems (ofShape built) schema = [] ∧ families = canonicalFamilies (ofShape built) := by
  unfold unflattenShape
  cases assemble quantities attributes schema with
  | error problems =>
    refine iff_of_false nofun ?_
    rintro ⟨built, none, -⟩
    cases none
  | ok built =>
    dsimp only
    split
    next none =>
      have structured : shapeStructureProblems (ofShape built) = [] :=
        (structured_iff (distinct_ofShape built)).mpr
          ((shapeProblems_eq_nil_iff (distinct_ofShape built)).mp none).1
      rw [canonicalShape_eq_ok]
      constructor
      · rintro ⟨-, rfl⟩
        exact ⟨built, rfl, none, rfl⟩
      · rintro ⟨other, same, -, rfl⟩
        cases same
        exact ⟨structured, rfl⟩
    next problem problems some' =>
      refine iff_of_false nofun ?_
      rintro ⟨other, same, none, -⟩
      cases same
      rw [none] at some'
      cases some'

/-- A shape and flat values correspond: what the flat values are placed as is the shape. -/
def Corresponds (schema : CapabilitySchema) (shape : Document φ)
    (quantities attributes : Dict Text (Document φ)) : Prop :=
  ∃ built, assemble quantities attributes schema = .ok built ∧ SameShape (ofShape built) shape

theorem corresponds_of_flatten (distinct : Distinct shape)
    (done : flattenShape shape schema = .ok flat) :
    Corresponds schema shape flat.quantities flat.attributes := by
  obtain ⟨sound, rfl⟩ := flattenShape_eq_ok.mp done
  obtain ⟨structured, conforms⟩ := (shapeProblems_eq_nil_iff distinct).mp sound
  have known : Known schema (flatItems shape schema .quantity)
      (flatItems shape schema .attribute) := by
    rintro ⟨name, value, kind⟩ inside
    rw [mem_givenItems] at inside
    rcases kind with _ | _
    · obtain ⟨definition, member, isKind, here, -⟩ := (get?_flatItems distinct).mp inside
      exact ⟨definition, member, here, isKind⟩
    · obtain ⟨definition, member, isKind, here, -⟩ := (get?_flatItems distinct).mp inside
      exact ⟨definition, member, here, isKind⟩
  obtain ⟨built, assembled⟩ := exists_assemble known
  obtain ⟨-, filled, values⟩ := assemble_eq_ok assembled
  have states : ∀ family field value, States (ofShape built) family field value ↔
      States shape family field value := by
    intro family field value
    rw [states_ofShape, values]
    constructor
    · rintro ⟨definition, member, place, given⟩
      cases place
      exact (given_flatItems distinct member).mp given
    · intro stated
      obtain ⟨definition, looked, -⟩ := conforms.defined family field value stated
      obtain ⟨member, rfl, rfl⟩ := CapabilitySchema.lookup_eq_some.mp looked
      exact ⟨definition, member, rfl, (given_flatItems distinct member).mpr stated⟩
  refine ⟨built, assembled, states, fun family => ?_⟩
  constructor
  · intro named
    obtain ⟨fields, found⟩ := names_ofShape.mp named
    obtain ⟨field, value, there⟩ := filled family fields found
    have stated : States (ofShape built) family field value :=
      states_ofShape.mpr (by rw [valueAt, found, Option.bind_some, there])
    obtain ⟨document, inside, -⟩ := states_iff.mp ((states family field value).mp stated)
    exact ⟨document, inside⟩
  · intro named
    obtain ⟨field, value, stated⟩ := structured.filled family named
    obtain ⟨document, inside, -⟩ := states_iff.mp ((states family field value).mpr stated)
    exact ⟨document, inside⟩

/-- **Corresponding inputs are refused alike.** -/
theorem Corresponds.accepted_iff (distinct : Distinct shape)
    (corresponds : Corresponds schema shape quantities attributes) :
    (∃ flat, flattenShape shape schema = .ok flat) ↔
      ∃ families, unflattenShape quantities attributes schema = .ok families := by
  obtain ⟨built, assembled, same⟩ := corresponds
  have alike : shapeProblems (ofShape built) schema = [] ↔ shapeProblems shape schema = [] :=
    shapeProblems_congr (distinct_ofShape built) distinct same.states same.names
  constructor
  · rintro ⟨flat, done⟩
    exact ⟨_, unflattenShape_eq_ok.mpr
      ⟨built, assembled, alike.mpr (flattenShape_eq_ok.mp done).1, rfl⟩⟩
  · rintro ⟨families, done⟩
    obtain ⟨built', assembled', sound, -⟩ := unflattenShape_eq_ok.mp done
    rw [assembled] at assembled'
    cases assembled'
    exact ⟨_, flattenShape_eq_ok.mpr ⟨alike.mp sound, rfl⟩⟩

/-- **What a shape flattens to is built into its canonical form.** -/
theorem unflatten_flatten (distinct : Distinct shape)
    (done : flattenShape shape schema = .ok flat) :
    ∃ families, canonicalShape shape = .ok families ∧
      unflattenShape flat.quantities flat.attributes schema = .ok families := by
  obtain ⟨built, assembled, same⟩ := corresponds_of_flatten distinct done
  have sound := (flattenShape_eq_ok.mp done).1
  have structured := ((shapeProblems_eq_nil_iff distinct).mp sound).1
  refine ⟨_, canonicalShape_eq_ok.mpr ⟨(structured_iff distinct).mpr structured, rfl⟩,
    unflattenShape_eq_ok.mpr ⟨built, assembled, ?_, ?_⟩⟩
  · exact (shapeProblems_congr (distinct_ofShape built) distinct same.states same.names).mpr sound
  · exact (canonicalFamilies_eq_iff distinct (distinct_ofShape built)).mpr same.symm

/-- **Flat values that are built into a shape are what the shape flattens to.** -/
theorem flatten_unflatten (done : unflattenShape quantities attributes schema = .ok families) :
    ∃ flat, flattenShape (ofFamilies families) schema = .ok flat ∧
      (∀ name, flat.quantities.get? name = quantities.get? name) ∧
      ∀ name, flat.attributes.get? name = attributes.get? name := by
  obtain ⟨built, assembled, sound, rfl⟩ := unflattenShape_eq_ok.mp done
  obtain ⟨known, -, values⟩ := assemble_eq_ok assembled
  have distinct := distinct_canonicalFamilies (distinct_ofShape built)
  have same := sameShape_canonicalFamilies (ofShape built)
  have sound' : shapeProblems (ofFamilies (canonicalFamilies (ofShape built))) schema = [] :=
    (shapeProblems_congr distinct (distinct_ofShape built) same.states same.names).mpr sound
  have back : ∀ kind name, (flatItems (ofFamilies (canonicalFamilies (ofShape built))) schema
      kind).get? name = (side quantities attributes kind).get? name := by
    intro kind name
    refine Option.ext fun value => ?_
    rw [get?_flatItems distinct]
    constructor
    · rintro ⟨definition, member, rfl, rfl, stated⟩
      rw [same.states, states_ofShape, values] at stated
      obtain ⟨definition', member', place, given⟩ := stated
      have one := List.inj_on_of_nodup_map schema.paths member' member
        (pathOf_inj (congrArg Prod.fst place) (congrArg Prod.snd place))
      subst one
      exact given
    · intro found
      obtain ⟨definition, member, rfl, rfl⟩ := known ⟨name, value, kind⟩ (mem_givenItems.mpr found)
      refine ⟨definition, member, rfl, rfl, ?_⟩
      rw [same.states, states_ofShape, values]
      exact ⟨definition, member, rfl, found⟩
  exact ⟨_, flattenShape_eq_ok.mpr ⟨sound', rfl⟩, back .quantity, back .attribute⟩

end

end ComputeMarket.Shapes
