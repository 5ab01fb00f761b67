import ComputeMarket.Library.Documents
import ComputeMarket.Library.Table

/-!
# Schemas and the problems of a shape

`capability-shape`: a schema says for each field of a family whether it is a quantity or an
attribute, whether it is required, and its flat name. A shape is read structurally
(`shape_structure_problems`), and under a schema (`shape_problems`).

A shape arrives as a document. What it states are values under a family and a field (`States`);
whether it has problems depends on that and on the families that it names, not on the order in
which they stand (`shapeProblems_eq_nil_iff`).
-/

namespace ComputeMarket.Shapes

open Texts

/-! ## Schemas -/

variable {family field : Text}

/-- `FieldKind`. -/
inductive FieldKind
  | quantity
  | attribute
  deriving DecidableEq

structure ShapeField where
  family : Text
  field : Text
  kind : FieldKind
  flatName : Text
  required : Bool

/-- `f"{family}.{field}"`. -/
def pathOf (family field : Text) : Text := family ++ '.'.toNat :: field

def ShapeField.path (definition : ShapeField) : Text :=
  pathOf definition.family definition.field

/-- `CapabilitySchema`, as its checks leave it. -/
structure CapabilitySchema where
  fields : List ShapeField
  paths : (fields.map ShapeField.path).Nodup
  flatNames : (fields.map ShapeField.flatName).Nodup
  named : ∀ definition ∈ fields,
    definition.family ≠ [] ∧ definition.field ≠ [] ∧ definition.flatName ≠ []

def CapabilitySchema.lookup (schema : CapabilitySchema) (family field : Text) :
    Option ShapeField :=
  schema.fields.find? fun candidate => candidate.family = family && candidate.field = field

/-- A shape as a mapping of mappings: its families, each with its fields. -/
abbrev Shape (φ : Type) : Type := Dict Text (Dict Text (Document φ))

theorem pathOf_inj {family' field' : Text} (same : family = family') (same' : field = field') :
    pathOf family field = pathOf family' field' := by
  rw [same, same']

variable {schema : CapabilitySchema}

theorem CapabilitySchema.lookup_eq_some {definition : ShapeField} :
    schema.lookup family field = some definition ↔
      definition ∈ schema.fields ∧ definition.family = family ∧ definition.field = field := by
  unfold lookup
  constructor
  · intro found
    have same := List.find?_some found
    simp only [Bool.and_eq_true, decide_eq_true_eq] at same
    exact ⟨List.mem_of_find?_eq_some found, same⟩
  · rintro ⟨inside, rfl, rfl⟩
    cases found : schema.fields.find? fun candidate =>
        candidate.family = definition.family && candidate.field = definition.field with
    | none =>
      have absent := List.find?_eq_none.mp found _ inside
      simp at absent
    | some other =>
      have same := List.find?_some found
      simp only [Bool.and_eq_true, decide_eq_true_eq] at same
      exact congrArg some (List.inj_on_of_nodup_map schema.paths (List.mem_of_find?_eq_some found)
        inside (pathOf_inj same.1 same.2))

/-! ## Problems -/

/-- Whether a floating-point number is finite, and the text it is written as. -/
class Floats (φ : Type) where
  isFinite : φ → Bool
  text : φ → Text

/-- No floating-point numbers. -/
instance : Floats Empty := ⟨Empty.elim, Empty.elim⟩

variable {φ : Type}

inductive ShapeReason (φ : Type)
  /-- A shape must be a mapping of family to fields. -/
  | notMapping
  /-- A shape must name at least one family. -/
  | noFamily
  /-- A family name must be a non-empty string. -/
  | familyName
  /-- A family must be a mapping of field to value. -/
  | familyMapping
  /-- A family must name at least one field. -/
  | noField
  /-- A field name must be a non-empty string. -/
  | fieldName
  /-- A field value must be a scalar. -/
  | scalar (value : Document φ)
  /-- Is not defined by this schema. -/
  | undefined
  | positiveInteger (value : Document φ)
  | nonEmptyString (value : Document φ)
  | required
  /-- Is of the one kind, not of the other. -/
  | kind (is isNot : FieldKind)

structure ShapeProblem (φ : Type) where
  path : Text
  reason : ShapeReason φ

/-- `repr` of the empty text. -/
def emptyRepr : Text := points "''"

def membersOf : Document φ → List (Text × Document φ)
  | .obj members => members
  | _ => []

def findMember {α : Type} (members : List (Text × α)) (key : Text) : Option α :=
  (members.find? fun member => member.1 = key).map Prod.snd

section

variable [Floats φ]

def isScalar : Document φ → Bool
  | .float x => Floats.isFinite x
  | .str _ | .int _ | .bool _ => true
  | _ => false

def fieldProblems (family : Text) (member : Text × Document φ) : List (ShapeProblem φ) :=
  if member.1 = [] then [⟨pathOf family emptyRepr, .fieldName⟩]
  else if isScalar member.2 then []
  else [⟨pathOf family member.1, .scalar member.2⟩]

def familyProblems (member : Text × Document φ) : List (ShapeProblem φ) :=
  if member.1 = [] then [⟨emptyRepr, .familyName⟩]
  else
    match member.2 with
    | .obj [] => [⟨member.1, .noField⟩]
    | .obj fields => fields.flatMap (fieldProblems member.1)
    | _ => [⟨member.1, .familyMapping⟩]

def shapeStructureProblems : Document φ → List (ShapeProblem φ)
  | .obj [] => [⟨[], .noFamily⟩]
  | .obj members => members.flatMap familyProblems
  | _ => [⟨[], .notMapping⟩]

end

def entriesOf (shape : Document φ) : List (Text × Text × Document φ) :=
  (membersOf shape).flatMap fun member =>
    (membersOf member.2).map fun entry => (member.1, entry.1, entry.2)

def whiteSpace (point : ℕ) : Bool :=
  (9 ≤ point && point ≤ 13) || (28 ≤ point && point ≤ 32) || point = 0x85 || point = 0xA0 ||
    point = 0x1680 || (0x2000 ≤ point && point ≤ 0x200A) || point = 0x2028 || point = 0x2029 ||
    point = 0x202F || point = 0x205F || point = 0x3000

def fitsKind : FieldKind → Document φ → Bool
  | .quantity, .int n => 0 < n
  | .attribute, .str text => !text.all whiteSpace
  | _, _ => false

def valueProblems (schema : CapabilitySchema) (entry : Text × Text × Document φ) :
    List (ShapeProblem φ) :=
  match schema.lookup entry.1 entry.2.1 with
  | none => [⟨pathOf entry.1 entry.2.1, .undefined⟩]
  | some definition =>
    if fitsKind definition.kind entry.2.2 then []
    else
      match definition.kind with
      | .quantity => [⟨pathOf entry.1 entry.2.1, .positiveInteger entry.2.2⟩]
      | .attribute => [⟨pathOf entry.1 entry.2.1, .nonEmptyString entry.2.2⟩]

def requiredProblems (shape : Document φ) (definition : ShapeField) : List (ShapeProblem φ) :=
  match findMember (membersOf shape) definition.family with
  | some fields =>
    if definition.required && (findMember (membersOf fields) definition.field).isNone then
      [⟨definition.path, .required⟩]
    else []
  | none => []

def shapeProblems [Floats φ] (shape : Document φ) (schema : CapabilitySchema) :
    List (ShapeProblem φ) :=
  let structural := shapeStructureProblems shape
  match structural with
  | [] => (entriesOf shape).flatMap (valueProblems schema) ++
      schema.fields.flatMap (requiredProblems shape)
  | _ :: _ => structural

/-! ## What a shape states -/

variable {shape value : Document φ} {α : Type} {members : List (Text × α)} {key : Text}

def States (shape : Document φ) (family field : Text) (value : Document φ) : Prop :=
  (family, field, value) ∈ entriesOf shape

def Names (shape : Document φ) (family : Text) : Prop :=
  ∃ value, (family, value) ∈ membersOf shape

structure Distinct (shape : Document φ) : Prop where
  families : ((membersOf shape).map Prod.fst).Nodup
  fields : ∀ member ∈ membersOf shape, ((membersOf member.2).map Prod.fst).Nodup

theorem states_iff :
    States shape family field value ↔
      ∃ fields, (family, fields) ∈ membersOf shape ∧ (field, value) ∈ membersOf fields := by
  unfold States entriesOf
  rw [List.mem_flatMap]
  constructor
  · rintro ⟨⟨name, fields⟩, inside, entry⟩
    obtain ⟨⟨key, stated⟩, member, same⟩ := List.mem_map.mp entry
    cases same
    exact ⟨fields, inside, member⟩
  · rintro ⟨fields, inside, member⟩
    exact ⟨(family, fields), inside, List.mem_map.mpr ⟨(field, value), member, rfl⟩⟩

theorem mem_of_findMember {value : α} (found : findMember members key = some value) :
    (key, value) ∈ members := by
  obtain ⟨⟨name, other⟩, first, rfl⟩ := Option.map_eq_some_iff.mp found
  obtain rfl : name = key := by simpa using List.find?_some first
  exact List.mem_of_find?_eq_some first

theorem findMember_eq_some (distinct : (members.map Prod.fst).Nodup) {value : α} :
    findMember members key = some value ↔ (key, value) ∈ members := by
  refine ⟨mem_of_findMember, fun inside => ?_⟩
  cases found : findMember members key with
  | none =>
    have absent := List.find?_eq_none.mp (Option.map_eq_none_iff.mp found) _ inside
    simp at absent
  | some other =>
    have same := List.inj_on_of_nodup_map distinct (mem_of_findMember found) inside rfl
    cases same
    rfl

theorem findMember_eq_none :
    findMember members key = none ↔ ∀ value, (key, value) ∉ members := by
  rw [findMember, Option.map_eq_none_iff, List.find?_eq_none]
  constructor
  · intro absent value inside
    have other := absent _ inside
    simp at other
  · rintro absent ⟨name, value⟩ inside same
    obtain rfl : name = key := by simpa using same
    exact absent value inside

theorem Distinct.states_under (distinct : Distinct shape) {document : Document φ}
    (present : (family, document) ∈ membersOf shape) :
    States shape family field value ↔ (field, value) ∈ membersOf document := by
  rw [states_iff]
  refine ⟨fun ⟨other, inside, member⟩ => ?_, fun member => ⟨document, present, member⟩⟩
  have same := List.inj_on_of_nodup_map distinct.families inside present rfl
  cases same
  exact member

theorem Distinct.value_unique (distinct : Distinct shape) {other : Document φ}
    (stated : States shape family field value) (stated' : States shape family field other) :
    value = other := by
  obtain ⟨fields, inside, member⟩ := states_iff.mp stated
  obtain ⟨fields', inside', member'⟩ := states_iff.mp stated'
  have same := List.inj_on_of_nodup_map distinct.families inside inside' rfl
  cases same
  have same' := List.inj_on_of_nodup_map (distinct.fields _ inside) member member' rfl
  cases same'
  rfl

/-! ## Structure -/

section

variable [Floats φ]

/-- A shape without a structural problem: it names a family, every family that it names states a
field, and names and values are as they must be. -/
structure Structured (shape : Document φ) : Prop where
  stated : ∃ family field value, States shape family field value
  filled : ∀ family, Names shape family → ∃ field value, States shape family field value
  scalar : ∀ family field value, States shape family field value →
    family ≠ [] ∧ field ≠ [] ∧ isScalar value = true

theorem fieldProblems_eq_nil {member : Text × Document φ} :
    fieldProblems family member = [] ↔ member.1 ≠ [] ∧ isScalar member.2 = true := by
  unfold fieldProblems
  split
  next empty => exact iff_of_false (List.cons_ne_nil _ _) fun both => both.1 empty
  next named =>
  split
  next scalar => exact iff_of_true rfl ⟨named, scalar⟩
  next other => exact iff_of_false (List.cons_ne_nil _ _) fun both => other both.2

theorem familyProblems_eq_nil {member : Text × Document φ} :
    familyProblems member = [] ↔ member.1 ≠ [] ∧ membersOf member.2 ≠ [] ∧
      ∀ entry ∈ membersOf member.2, entry.1 ≠ [] ∧ isScalar entry.2 = true := by
  unfold familyProblems
  split
  next empty => exact iff_of_false (List.cons_ne_nil _ _) fun all => all.1 empty
  next named =>
  split
  next none =>
    rw [none]
    exact iff_of_false (List.cons_ne_nil _ _) fun all => all.2.1 rfl
  next fields filled some' =>
    rw [some', List.flatMap_eq_nil_iff]
    refine (forall₂_congr fun entry _ => fieldProblems_eq_nil).trans ?_
    exact ⟨fun all => ⟨named, filled, all⟩, fun all => all.2.2⟩
  next other _ none =>
  have nothing : membersOf member.2 = [] := by
    unfold membersOf
    split
    next members same => exact absurd same (none members)
    next => rfl
  exact iff_of_false (List.cons_ne_nil _ _) fun all => all.2.1 nothing

theorem shapeStructureProblems_eq_nil :
    shapeStructureProblems shape = [] ↔ membersOf shape ≠ [] ∧
      ∀ member ∈ membersOf shape, familyProblems member = [] := by
  cases shape with
  | obj members =>
    cases members with
    | nil => exact iff_of_false (List.cons_ne_nil _ _) fun all => all.1 rfl
    | cons member rest =>
      change (member :: rest).flatMap familyProblems = [] ↔ _
      rw [List.flatMap_eq_nil_iff]
      exact ⟨fun all => ⟨List.cons_ne_nil _ _, all⟩, fun all => all.2⟩
  | _ => exact iff_of_false (List.cons_ne_nil _ _) fun all => all.1 rfl

/-- **What `shape_structure_problems` asks for.** -/
theorem structured_iff (distinct : Distinct shape) :
    shapeStructureProblems shape = [] ↔ Structured shape := by
  rw [shapeStructureProblems_eq_nil]
  constructor
  · rintro ⟨some', families⟩
    have filled : ∀ family, Names shape family → ∃ field value, States shape family field value := by
      rintro family ⟨value, inside⟩
      obtain ⟨-, fields, -⟩ := familyProblems_eq_nil.mp (families _ inside)
      obtain ⟨⟨field, stated⟩, member⟩ := List.exists_mem_of_ne_nil _ fields
      exact ⟨field, stated, states_iff.mpr ⟨value, inside, member⟩⟩
    obtain ⟨⟨family, value⟩, inside⟩ := List.exists_mem_of_ne_nil _ some'
    refine ⟨⟨family, filled family ⟨value, inside⟩⟩, filled, ?_⟩
    intro family field value stated
    obtain ⟨fields, inside, member⟩ := states_iff.mp stated
    obtain ⟨named, -, entries⟩ := familyProblems_eq_nil.mp (families _ inside)
    exact ⟨named, entries _ member⟩
  · rintro ⟨⟨family, field, value, stated⟩, filled, scalar⟩
    constructor
    · obtain ⟨fields, inside, -⟩ := states_iff.mp stated
      exact List.ne_nil_of_mem inside
    · rintro ⟨family, fields⟩ inside
      obtain ⟨field, value, stated⟩ := filled family ⟨fields, inside⟩
      obtain ⟨fields', inside', member⟩ := states_iff.mp stated
      have same := List.inj_on_of_nodup_map distinct.families inside inside' rfl
      cases same
      refine familyProblems_eq_nil.mpr ⟨(scalar family field value stated).1,
        List.ne_nil_of_mem member, ?_⟩
      intro entry inner
      exact (scalar family entry.1 entry.2 (states_iff.mpr ⟨fields, inside, inner⟩)).2

/-! ## Conformance -/

/-- A shape that a schema has nothing against: its fields are defined and of their kind, and a
family that it names has its required fields. -/
structure Conforms (schema : CapabilitySchema) (shape : Document φ) : Prop where
  defined : ∀ family field value, States shape family field value →
    ∃ definition, schema.lookup family field = some definition ∧
      fitsKind definition.kind value = true
  complete : ∀ definition ∈ schema.fields, definition.required = true →
    Names shape definition.family → ∃ value, States shape definition.family definition.field value

omit [Floats φ] in
theorem valueProblems_eq_nil {entry : Text × Text × Document φ} :
    valueProblems schema entry = [] ↔ ∃ definition,
      schema.lookup entry.1 entry.2.1 = some definition ∧
        fitsKind definition.kind entry.2.2 = true := by
  unfold valueProblems
  cases found : schema.lookup entry.1 entry.2.1 with
  | none =>
    refine iff_of_false (List.cons_ne_nil _ _) ?_
    rintro ⟨definition, none, -⟩
    cases none
  | some definition =>
    dsimp only
    split
    next fits => exact iff_of_true rfl ⟨definition, rfl, fits⟩
    next other =>
    refine iff_of_false ?_ fun ⟨_, same, fits⟩ => ?_
    · cases definition.kind <;> exact List.cons_ne_nil _ _
    · cases same
      exact other fits

omit [Floats φ] in
theorem requiredProblems_eq_nil (distinct : Distinct shape) {definition : ShapeField} :
    requiredProblems shape definition = [] ↔
      (definition.required = true → Names shape definition.family →
        ∃ value, States shape definition.family definition.field value) := by
  unfold requiredProblems
  cases found : findMember (membersOf shape) definition.family with
  | none =>
    refine iff_of_true rfl fun _ ⟨value, inside⟩ => ?_
    exact absurd inside (findMember_eq_none.mp found value)
  | some fields =>
    have inside := mem_of_findMember found
    dsimp only
    cases there : findMember (membersOf fields) definition.field with
    | some value =>
      rw [Option.isNone_some, Bool.and_false]
      exact iff_of_true rfl fun _ _ =>
        ⟨value, states_iff.mpr ⟨fields, inside, mem_of_findMember there⟩⟩
    | none =>
      rw [Option.isNone_none, Bool.and_true]
      cases definition.required with
      | false => exact iff_of_true rfl fun none => by cases none
      | true =>
        refine iff_of_false (List.cons_ne_nil _ _) fun complete => ?_
        obtain ⟨value, stated⟩ := complete rfl ⟨fields, inside⟩
        obtain ⟨fields', inside', member⟩ := states_iff.mp stated
        have same := List.inj_on_of_nodup_map distinct.families inside inside' rfl
        cases same
        exact findMember_eq_none.mp there value member

/-- **What `shape_problems` asks for.** -/
theorem shapeProblems_eq_nil_iff (distinct : Distinct shape) :
    shapeProblems shape schema = [] ↔ Structured shape ∧ Conforms schema shape := by
  rw [← structured_iff distinct]
  unfold shapeProblems
  dsimp only
  split
  next structured =>
    rw [structured, List.append_eq_nil_iff, List.flatMap_eq_nil_iff, List.flatMap_eq_nil_iff]
    constructor
    · rintro ⟨values, required⟩
      refine ⟨rfl, fun family field value stated => ?_, fun definition inside => ?_⟩
      · exact valueProblems_eq_nil.mp (values _ stated)
      · exact (requiredProblems_eq_nil distinct).mp (required definition inside)
    · rintro ⟨-, defined, complete⟩
      refine ⟨fun entry stated => ?_, fun definition inside => ?_⟩
      · exact valueProblems_eq_nil.mpr (defined _ _ _ stated)
      · exact (requiredProblems_eq_nil distinct).mpr (complete definition inside)
  next problem rest some' =>
    rw [some']
    exact iff_of_false (List.cons_ne_nil _ _) fun both => List.cons_ne_nil _ _ both.1

theorem shapeProblems_congr {first second : Document φ} (distinct : Distinct first)
    (distinct' : Distinct second) (same : ∀ family field value, States first family field value ↔
      States second family field value)
    (names : ∀ family, Names first family ↔ Names second family) :
    shapeProblems first schema = [] ↔ shapeProblems second schema = [] := by
  rw [shapeProblems_eq_nil_iff distinct, shapeProblems_eq_nil_iff distinct']
  have structured : Structured first ↔ Structured second := by
    constructor
    · rintro ⟨stated, filled, scalar⟩
      simp only [same, names] at stated filled scalar
      exact ⟨stated, filled, scalar⟩
    · rintro ⟨stated, filled, scalar⟩
      simp only [← same, ← names] at stated filled scalar
      exact ⟨stated, filled, scalar⟩
  have conforms : Conforms schema first ↔ Conforms schema second := by
    constructor
    · rintro ⟨defined, complete⟩
      simp only [same, names] at defined complete
      exact ⟨defined, complete⟩
    · rintro ⟨defined, complete⟩
      simp only [← same, ← names] at defined complete
      exact ⟨defined, complete⟩
  rw [structured, conforms]

end

end ComputeMarket.Shapes
