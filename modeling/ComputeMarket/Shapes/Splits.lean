import ComputeMarket.Shapes.CanonicalText
import ComputeMarket.Shapes.Policies
import Mathlib.Data.Prod.Lex

/-!
# Splitting stated shapes

A stated shape may give a field a constraint mapping in place of its scalar. It is split into its
base shape, which holds what the mappings offer, and its constraints (`split_listing_shape`). In a
stated list the entries of one base shape, told by its digest, are one split, and carry a
declaration where all of them state the same constraints (`split_listing_shapes`).

What the language shows a value as, and the digest of a text, are a parameter (`Language`).
-/

namespace ComputeMarket.Shapes

open Texts

variable {φ : Type}

/-- `repr` of a value, as far as it is relied on, and `hashlib.sha256(…).hexdigest()` of the bytes
of a text. -/
structure Language (φ : Type) where
  repr : Document φ → Text
  repr_int : ∀ n, repr (.int n) = intCode n
  repr_min : repr (.str (points "min")) = points "'min'"
  repr_max : repr (.str (points "max")) = points "'max'"
  sha256 : Text → Text

/-- Half of a surrogate pair, which `encode("utf-8")` refuses. -/
def surrogate (point : ℕ) : Bool := 0xD800 ≤ point && point ≤ 0xDFFF

inductive DigestError (φ : Type)
  | text (why : CanonicalTextError φ)
  /-- The text is not encoded. -/
  | encode

def shapeDigestPrefix : Text := points "capability-shape.v1:"

def shapeDigest [Floats φ] (language : Language φ) (shape : Document φ) :
    Except (DigestError φ) Text :=
  match canonicalShapeJson shape with
  | .error why => .error (.text why)
  | .ok text =>
    if text.any surrogate then .error .encode
    else .ok (shapeDigestPrefix ++ language.sha256 text)

/-! ## One entry -/

/-- `OFFER`. -/
def offerKey : Text := points "offer"

/-- `MIN`. -/
def minKey : Text := points "min"

/-- `MAX`. -/
def maxKey : Text := points "max"

def listingKeys : List Text := [offerKey, minKey, maxKey]

/-- What a field leaves in the base shape: its value, or what its constraint mapping offers. -/
def keptField (entry : Text × Document φ) : Option (Text × Document φ) :=
  match entry.2 with
  | .obj mapping =>
    if entry.1 = [] then some entry else (findMember mapping offerKey).map (Prod.mk entry.1)
  | _ => some entry

def constrainedField (family : Text) (entry : Text × Document φ) :
    Option (Place × List (Text × Document φ)) :=
  match entry.2 with
  | .obj mapping => if entry.1 = [] then none else some ((family, entry.1), mapping)
  | _ => none

/-- What a family leaves in the base shape, nothing where every field constrains without
offering. -/
def baseFamily (member : Text × Document φ) : Option (Text × Document φ) :=
  match member.2 with
  | .obj (field :: fields) =>
    match (field :: fields).filterMap keptField with
    | [] => none
    | kept => some (member.1, .obj kept)
  | _ => some member

/-- The base shape that `_separate` finds. -/
def baseOf : Document φ → Document φ
  | .obj members => .obj (members.filterMap baseFamily)
  | raw => raw

/-- The constraint mappings that `_separate` finds. -/
def constrainedOf (raw : Document φ) : List (Place × List (Text × Document φ)) :=
  (membersOf raw).flatMap fun member =>
    (membersOf member.2).filterMap (constrainedField member.1)

def positiveOf : Document φ → Option ℤ
  | .int n => if 0 < n then some n else none
  | _ => none

def constraintProblems (language : Language φ) (path : Text) (mapping : List (Text × Document φ))
    (allowed : List Text) (tier : Text) (entries : List ℕ) : List (AdmissibilityProblem φ) :=
  let problem := fun (code : ProblemCode) (message : Message φ) =>
    AdmissibilityProblem.mk [path] code message (some tier) entries []
  match mapping with
  | [] => [problem .emptyConstraint (.emptyConstraint allowed)]
  | _ :: _ =>
    let unknown := ((mapping.map Prod.fst).filter (· ∉ listingKeys)).map fun key =>
      language.repr (.str key)
    let read := fun key => (findMember mapping key).bind positiveOf
    let low := if minKey ∈ allowed then read minKey else none
    let high := if maxKey ∈ allowed then read maxKey else none
    let offer := if offerKey ∈ allowed then read offerKey else none
    (if unknown = [] then []
      else [problem .unknownConstraintKey (.unknownKeys (unknown.insertionSort (· ≤ ·)))]) ++
    (if (findMember mapping offerKey).isSome ∧ offerKey ∉ allowed then
      [problem .offerInDeclaration .offer] else []) ++
    allowed.flatMap (fun key =>
      match findMember mapping key with
      | none => []
      | some value =>
        match positiveOf value with
        | some _ => []
        | none => [problem .invalidConstraintValue (.notPositive key value)]) ++
    if low.any fun low => high.any fun high => high < low then
      [problem .invertedRange (.inverted (low.getD 0) (high.getD 0))]
    else if offer.any fun offer => low.any (offer < ·) || high.any (· < offer) then
      [problem .offerOutsideRange (.outside (offer.getD 0))]
    else []

def statedBounds (mapping : List (Text × Document φ)) : Option StatedBounds :=
  match (findMember mapping minKey).bind positiveOf, (findMember mapping maxKey).bind positiveOf with
  | none, none => none
  | low, high => some ⟨low, high⟩

/-- What an entry states of its fields beside its base shape. -/
def constraintsOf (raw : Document φ) : List (Place × StatedBounds) :=
  (constrainedOf raw).filterMap fun item => (statedBounds item.2).map (Prod.mk item.1)

theorem statedBounds_sound {mapping : List (Text × Document φ)} {bounds : StatedBounds}
    (stated : statedBounds mapping = some bounds) : bounds.Sound := by
  have positive : ∀ {key : Text} {n : ℤ},
      (findMember mapping key).bind positiveOf = some n → 0 < n := by
    intro key n read
    obtain ⟨value, -, read⟩ := Option.bind_eq_some_iff.mp read
    unfold positiveOf at read
    split at read
    · split at read
      next positive =>
        cases read
        exact positive
      next => cases read
    · cases read
  unfold statedBounds at stated
  split at stated
  next => cases stated
  next low high some' =>
  cases stated
  refine ⟨?_, fun n isLow => positive isLow, fun n isHigh => positive isHigh⟩
  by_contra neither
  push Not at neither
  exact some' neither.1 neither.2

theorem constraintsOf_sound {raw : Document φ} {item : Place × StatedBounds}
    (inside : item ∈ Dict.ofItems (constraintsOf raw)) : item.2.Sound := by
  obtain ⟨constrained, -, found⟩ := List.mem_filterMap.mp (Dict.mem_ofItems inside)
  obtain ⟨bounds, stated, rfl⟩ := Option.map_eq_some_iff.mp found
  exact statedBounds_sound stated

def declarationOf (raw : Document φ) (tier : Text) : Declaration where
  tier := tier
  bounds := Dict.ofItems (constraintsOf raw)
  sound _ inside := constraintsOf_sound inside

structure ShapeSplit (φ : Type) where
  baseShape : Option (List (Text × List (Text × Document φ)))
  declaration : Option Declaration
  baseProblems : List (AdmissibilityProblem φ)
  constraintProblems : List (AdmissibilityProblem φ)
  entries : List ℕ

section

variable [Floats φ]

def baseShapeProblems (schema : Option CapabilitySchema) (base : Document φ) :
    List (ShapeProblem φ) :=
  match schema with
  | none => shapeStructureProblems base
  | some schema => shapeProblems base schema

def itemProblems (language : Language φ) (tier : Text) (schema : Option CapabilitySchema)
    (entries : List ℕ) (item : Place × List (Text × Document φ)) : List (AdmissibilityProblem φ) :=
  let path := pathOf item.1.1 item.1.2
  if schema.any fun schema => !isQuantity schema item.1 then [notAQuantity path tier entries]
  else constraintProblems language path item.2 listingKeys tier entries

def split (language : Language φ) (raw : Document φ) (tier : Text)
    (schema : Option CapabilitySchema) (entries : List ℕ) : ShapeSplit φ :=
  match baseShapeProblems schema (baseOf raw) with
  | problem :: problems =>
    { baseShape := none
      declaration := none
      baseProblems := shapeKitProblems (problem :: problems) (some tier) entries
      constraintProblems := []
      entries := entries }
  | [] =>
    let problems := (constrainedOf raw).flatMap (itemProblems language tier schema entries)
    { baseShape := some (canonicalFamilies (baseOf raw))
      declaration :=
        match problems with
        | [] => some (declarationOf raw tier)
        | _ :: _ => none
      baseProblems := []
      constraintProblems := problems
      entries := entries }

/-! ## A list of entries -/

/-- What `_constraint_signature` says of one constraint mapping: its path, and its keys and values
but for the offer, as they are shown. -/
def signatureItem (language : Language φ) (item : Place × List (Text × Document φ)) :
    Option (Text ×ₗ List (Text ×ₗ Text)) :=
  let stated := ((item.2.filter fun member => member.1 ≠ offerKey).map fun member =>
    toLex (language.repr (.str member.1), language.repr member.2)).insertionSort (· ≤ ·)
  if stated ≠ [] ∨ item.2.isEmpty then some (toLex (pathOf item.1.1 item.1.2, stated)) else none

def constraintSignature (language : Language φ) (raw : Document φ) :
    List (Text ×ₗ List (Text ×ₗ Text)) :=
  ((constrainedOf raw).filterMap (signatureItem language)).insertionSort (· ≤ ·)

structure KeyedEntry (φ : Type) where
  position : ℕ
  raw : Document φ
  digest : Option Text

def differingPaths (signatures : List (List (Text ×ₗ List (Text ×ₗ Text)))) : List Text :=
  let stated := signatures.map fun signature => Dict.ofItems (signature.map ofLex)
  let paths := (stated.flatMap Dict.keys).dedup
  (paths.filter fun path => 1 < (stated.map fun constraints => constraints.get? path).dedup.length
    ).insertionSort (· ≤ ·)

/-- `_split_group`, of the entries of one digest. -/
def splitGroup (language : Language φ) (group : List (KeyedEntry φ)) (tier : Text)
    (schema : Option CapabilitySchema) : ShapeSplit φ :=
  let splits := group.map fun entry => split language entry.raw tier schema [entry.position]
  let own := splits.flatMap ShapeSplit.constraintProblems
  let every := group.map KeyedEntry.position
  let signatures := (group.map fun entry => constraintSignature language entry.raw).dedup
  let base := splits.head?.bind ShapeSplit.baseShape
  if signatures.length = 1 then
    { baseShape := base
      declaration :=
        match own with
        | [] => splits.head?.bind ShapeSplit.declaration
        | _ :: _ => none
      baseProblems := []
      constraintProblems := own
      entries := every }
  else
    { baseShape := base
      declaration := none
      baseProblems := []
      constraintProblems :=
        { paths := differingPaths signatures
          code := .conflictingDuplicate
          message := .conflict every
          tier := some tier
          entries := every
          bounds := [] } :: own
      entries := every }

def digestOf (language : Language φ) (schema : Option CapabilitySchema) (raw : Document φ) :
    Except (DigestError φ) (Option Text) :=
  match baseShapeProblems schema (baseOf raw) with
  | _ :: _ => .ok none
  | [] => (shapeDigest language (ofFamilies (canonicalFamilies (baseOf raw)))).map some

def keyedFrom (language : Language φ) (schema : Option CapabilitySchema) :
    ℕ → List (Document φ) → Except (DigestError φ) (List (KeyedEntry φ))
  | _, [] => .ok []
  | position, raw :: rest =>
    match digestOf language schema raw with
    | .error why => .error why
    | .ok digest =>
      (keyedFrom language schema (position + 1) rest).map (⟨position, raw, digest⟩ :: ·)

def isFirst (keyed : List (KeyedEntry φ)) (entry : KeyedEntry φ) : Bool :=
  entry.digest.isNone || (keyed.find? fun other => other.digest = entry.digest).any fun other =>
    other.position = entry.position

def splitFor (language : Language φ) (keyed : List (KeyedEntry φ)) (tier : Text)
    (schema : Option CapabilitySchema) (entry : KeyedEntry φ) : ShapeSplit φ :=
  match entry.digest with
  | none => split language entry.raw tier schema [entry.position]
  | some digest =>
    splitGroup language (keyed.filter fun other => other.digest = some digest) tier schema

def splitListingShapes (language : Language φ) (rawList : List (Document φ)) (tier : Text)
    (schema : Option CapabilitySchema) : Except (DigestError φ) (List (ShapeSplit φ)) :=
  (keyedFrom language schema 0 rawList).map fun keyed =>
    (keyed.filter (isFirst keyed)).map (splitFor language keyed tier schema)

def splitListingShape (language : Language φ) (raw : Document φ) (tier : Text)
    (schema : Option CapabilitySchema) : ShapeSplit φ :=
  split language raw tier schema []

end

end ComputeMarket.Shapes
