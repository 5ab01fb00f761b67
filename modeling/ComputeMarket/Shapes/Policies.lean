import ComputeMarket.Library.DecimalTexts
import ComputeMarket.Shapes.Flattening
import Mathlib.Data.Rat.Floor

/-!
# Policies

`capability-admissibility`: the declarations of a listing's tiers are merged into one policy,
which says what is wrong with a shape (`admissibility_problems`) and which values a quantity may
take beside what a partial shape states (`admissible_values`).
-/

namespace ComputeMarket.Shapes

open Texts

variable {φ : Type}

/-! ## Problems -/

/-- `ProblemCode`. -/
inductive ProblemCode
  | malformedShape
  | malformedDeclaration
  | emptyConstraint
  | unknownConstraintKey
  | offerInDeclaration
  | invalidConstraintValue
  | invertedRange
  | offerOutsideRange
  | notAQuantity
  | conflictingDuplicate
  | emptyRange
  | belowMinimum
  | aboveMaximum

/-- `TierBound`, of a tier's minimum or its maximum. -/
structure TierBound where
  tier : Text
  bound : Text
  value : ℤ

inductive Message (φ : Type)
  | shape (reason : ShapeReason φ)
  /-- The value is below the minimum. -/
  | below (value minimum : ℤ)
  /-- The value is above the maximum. -/
  | above (value maximum : ℤ)
  /-- The one tier's minimum is above the other's maximum. -/
  | emptyRange (low high : TierBound)
  /-- Constraints apply only to a quantity this schema defines. -/
  | constrained
  /-- Is not a quantity this schema defines. -/
  | dimension
  /-- A constraint mapping must state at least one of the keys. -/
  | emptyConstraint (allowed : List Text)
  | unknownKeys (keys : List Text)
  /-- The key must be a positive integer. -/
  | notPositive (key : Text) (value : Document φ)
  /-- A declaration states no offer. -/
  | offer
  | inverted (low high : ℤ)
  /-- The offer lies outside its own range. -/
  | outside (offer : ℤ)
  /-- One base shape is stated by the entries with different constraints. -/
  | conflict (entries : List ℕ)

structure AdmissibilityProblem (φ : Type) where
  paths : List Text
  code : ProblemCode
  message : Message φ
  tier : Option Text
  entries : List ℕ
  bounds : List TierBound

def shapeKitProblems (problems : List (ShapeProblem φ)) (tier : Option Text) (entries : List ℕ) :
    List (AdmissibilityProblem φ) :=
  problems.map fun problem =>
    { paths := if problem.path = [] then [] else [problem.path]
      code := .malformedShape
      message := .shape problem.reason
      tier := tier
      entries := entries
      bounds := [] }

def notAQuantity (path tier : Text) (entries : List ℕ) : AdmissibilityProblem φ :=
  { paths := [path], code := .notAQuantity, message := .constrained, tier := some tier
    entries := entries, bounds := [] }

/-! ## Declarations -/

/-- `_Path`: a family and a field. -/
abbrev Place : Type := Text × Text

structure StatedBounds where
  minimum : Option ℤ
  maximum : Option ℤ

def StatedBounds.Sound (stated : StatedBounds) : Prop :=
  (stated.minimum ≠ none ∨ stated.maximum ≠ none) ∧
    (∀ low, stated.minimum = some low → 0 < low) ∧ ∀ high, stated.maximum = some high → 0 < high

/-- `Declaration`, as the kit parses it. -/
structure Declaration where
  tier : Text
  bounds : Dict Place StatedBounds
  sound : ∀ item ∈ bounds, item.2.Sound

def isQuantity (schema : CapabilitySchema) (place : Place) : Bool :=
  (schema.lookup place.1 place.2).any fun definition => definition.kind = .quantity

structure RankedBound where
  value : ℤ
  rank : ℕ
  tier : Text

structure Merged where
  low : Option RankedBound
  high : Option RankedBound

structure Leaf where
  minimum : Option ℤ
  minimumTier : Option Text
  maximum : Option ℤ
  maximumTier : Option Text

def overwrite (stated : Option ℤ) (rank : ℕ) (tier : Text) (old : Option RankedBound) :
    Option RankedBound :=
  match stated with
  | some value => some ⟨value, rank, tier⟩
  | none => old

abbrev Merging (φ : Type) : Type := List (AdmissibilityProblem φ) × Dict Place Merged

def mergeItem (schema : CapabilitySchema) (rank : ℕ) (tier : Text) (state : Merging φ)
    (item : Place × StatedBounds) : Merging φ :=
  if isQuantity schema item.1 then
    let old := state.2.getD item.1 ⟨none, none⟩
    (state.1, state.2.set item.1
      ⟨overwrite item.2.minimum rank tier old.low, overwrite item.2.maximum rank tier old.high⟩)
  else (state.1 ++ [notAQuantity (pathOf item.1.1 item.1.2) tier []], state.2)

def mergeDeclaration (schema : CapabilitySchema) (state : Merging φ)
    (ranked : Declaration × ℕ) : Merging φ :=
  ranked.1.bounds.rows.foldl (mergeItem schema ranked.2 ranked.1.tier) state

def mergeAll (declarations : List Declaration) (schema : CapabilitySchema) : Merging φ :=
  declarations.zipIdx.reverse.foldl (mergeDeclaration schema) ([], Table.empty)

def emptyRangeProblem (item : Place × Merged) : Option (AdmissibilityProblem φ) :=
  item.2.low.bind fun low => item.2.high.bind fun high =>
    if high.value < low.value then
      let lower := TierBound.mk low.tier (points "min") low.value
      let upper := TierBound.mk high.tier (points "max") high.value
      some
        { paths := [pathOf item.1.1 item.1.2]
          code := .emptyRange
          message := .emptyRange lower upper
          tier := some (if low.rank < high.rank then low.tier else high.tier)
          entries := []
          bounds := [lower, upper] }
    else none

def leafOf (merged : Merged) : Leaf :=
  ⟨merged.low.map RankedBound.value, merged.low.map RankedBound.tier,
    merged.high.map RankedBound.value, merged.high.map RankedBound.tier⟩

structure ResolvedPolicy where
  schema : CapabilitySchema
  leaves : Dict Place Leaf

def resolve (declarations : List Declaration) (schema : CapabilitySchema) :
    Except (List (AdmissibilityProblem φ)) ResolvedPolicy :=
  let merged : Merging φ := mergeAll declarations schema
  match merged.1 ++ merged.2.rows.filterMap emptyRangeProblem with
  | [] => .ok ⟨schema, merged.2.mapValues leafOf⟩
  | problem :: problems => .error (problem :: problems)

/-! ## Admissibility -/

def CapabilitySchema.opened (schema : CapabilitySchema) : CapabilitySchema where
  fields := schema.fields.map fun definition => { definition with required := false }
  paths := by
    rw [List.map_map]
    exact schema.paths
  flatNames := by
    rw [List.map_map]
    exact schema.flatNames
  named := by
    intro definition inside
    obtain ⟨old, member, rfl⟩ := List.mem_map.mp inside
    exact schema.named old member

namespace ResolvedPolicy

variable (policy : ResolvedPolicy)

def valueViolations (place : Place) (value : Document φ) : List (AdmissibilityProblem φ) :=
  match policy.leaves.get? place, value with
  | some leaf, .int n =>
    (match leaf.minimum with
      | some low =>
        if n < low then
          [{ paths := [pathOf place.1 place.2], code := .belowMinimum, message := .below n low
             tier := leaf.minimumTier, entries := [], bounds := [] }]
        else []
      | none => []) ++
    match leaf.maximum with
    | some high =>
      if high < n then
        [{ paths := [pathOf place.1 place.2], code := .aboveMaximum, message := .above n high
           tier := leaf.maximumTier, entries := [], bounds := [] }]
      else []
    | none => []
  | _, _ => []

def violations (shape : Document φ) : List (AdmissibilityProblem φ) :=
  (canonicalFamilies shape).flatMap fun member =>
    member.2.flatMap fun entry => policy.valueViolations (member.1, entry.1) entry.2

def admissibilityProblems [Floats φ] (shape : Document φ) : List (AdmissibilityProblem φ) :=
  match shapeProblems shape policy.schema.opened with
  | [] => policy.violations shape
  | problem :: problems => shapeKitProblems (problem :: problems) none []

end ResolvedPolicy

/-- `AdmissibleValues`: no value, or those from the low end to the high end, where there is one. -/
structure AdmissibleValues where
  low : Option ℤ
  high : Option ℤ

namespace AdmissibleValues

def contains (values : AdmissibleValues) (value : ℤ) : Bool :=
  match values.low with
  | none => false
  | some low =>
    if 0 < value then low ≤ value && values.high.all fun high => value ≤ high else false

def atMost (values : AdmissibleValues) (threshold : ℚ) : Option ℤ :=
  match values.low with
  | none => none
  | some low =>
    if ⌊threshold⌋ < low then none
    else
      match values.high with
      | none => some ⌊threshold⌋
      | some high => some (min ⌊threshold⌋ high)

def atLeast (values : AdmissibleValues) (threshold : ℚ) : Option ℤ :=
  match values.low with
  | none => none
  | some low =>
    let candidate := max ⌈threshold⌉ low
    match values.high with
    | none => some candidate
    | some high => if high < candidate then none else some candidate

end AdmissibleValues

def withoutField (partialShape : Document φ) (place : Place) : Document φ :=
  match partialShape with
  | .obj members =>
    match findMember members place.1 with
    | some (.obj fields) =>
      if (findMember fields place.2).isSome then
        let rest := members.filter fun member => member.1 ≠ place.1
        let remaining := fields.filter fun entry => entry.1 ≠ place.2
        if remaining = [] then .obj rest else .obj (rest ++ [(place.1, .obj remaining)])
      else partialShape
    | _ => partialShape
  | _ => partialShape

namespace ResolvedPolicy

variable (policy : ResolvedPolicy)

def quantityPath (dimension : Text) : Except (List (AdmissibilityProblem φ)) Place :=
  let place := partition dimension
  if '.'.toNat ∈ dimension ∧ isQuantity policy.schema place then .ok place
  else
    .error
      [{ paths := [dimension], code := .notAQuantity, message := .dimension, tier := none
         entries := [], bounds := [] }]

def leafValues (place : Place) : AdmissibleValues :=
  match policy.leaves.get? place with
  | none => ⟨some 1, none⟩
  | some leaf => ⟨some (if leaf.minimum.getD 0 = 0 then 1 else leaf.minimum.getD 0), leaf.maximum⟩

def admissibleValues [Floats φ] (dimension : Text) (partialShape : Document φ) :
    Except (List (AdmissibilityProblem φ)) AdmissibleValues :=
  match policy.quantityPath dimension with
  | .error problems => .error problems
  | .ok place =>
    match withoutField partialShape place with
    | .obj [] => .ok (policy.leafValues place)
    | rest =>
      match shapeProblems rest policy.schema.opened with
      | problem :: problems => .error (shapeKitProblems (problem :: problems) none [])
      | [] =>
        match policy.violations rest with
        | [] => .ok (policy.leafValues place)
        | _ :: _ => .ok ⟨none, none⟩

end ResolvedPolicy

end ComputeMarket.Shapes
