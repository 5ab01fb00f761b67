import ComputeMarket.Library.DecimalArithmetic
import ComputeMarket.Shapes.CanonicalText

/-!
# Projections

What a site publishes of its offered rows: `resource_pool_projection`, the inventory of each pool,
and `capacity_bucket_projection`, the enabled rows grouped by what they offer. A projection is
hashed over its canonical form, and `ProjectionRevisionTracker` counts the changes of the hash.

A mapping of a row lists its members in the order of their keys, in which two mappings are compared.
Every number of a row is one that the language writes, and every text of a row one that it encodes.
-/

namespace ComputeMarket.Site

open Texts Shapes DecimalArithmetic

/-! ## Canonical values -/

/-- The context in which `normalize` rounds. -/
def normalContext : Context := { prec := 28, Emin := -999999, Emax := 999999 }

inductive Number
  | finite (negative : Bool) (coefficient : ℕ) (exponent : ℤ)
    (normal : (normalContext.fix ⟨coefficient, exponent⟩).isSome)
  | infinity (negative : Bool)
  | nan

/-- The scalars that JSON does not have. A floating-point number is told by the number that its
shortest text reads as, and what is no number by its text. -/
inductive Scalar
  | float (number : Number)
  | decimal (number : Number)
  | other (text : Text)

/-- `format(value, "f")`, behind its sign, of a value that `normalize` has rounded: the zeros that it
has taken off the coefficient are written again in front of the point, and left out behind it. -/
def fixedPoint (decimal : Decimal) : Text :=
  if 0 ≤ decimal.exponent then
    digitPoints (digitsOf (decimal.coefficient.natAbs * 10 ^ decimal.exponent.toNat))
  else decimalText (digitPoints (digitsOf decimal.coefficient.natAbs)) (-decimal.exponent).toNat

def signed (negative : Bool) (text : Text) : Text := if negative then '-'.toNat :: text else text

/-- `format(value.normalize(), "f")`. -/
def Number.normalized : Number → Text
  | .finite negative _ _ normal => signed negative (fixedPoint (Option.get _ normal))
  | .infinity negative => signed negative (points "Infinity")
  | .nan => points "NaN"

def Scalar.canonical : Scalar → Text
  | .float number | .decimal number => number.normalized
  | .other text => text

abbrev Value : Type := Document Scalar

abbrev Members : Type := List (Text × Value)

mutual

/-- `_canonical`. -/
def canonical : Value → Document Empty
  | .null => .null
  | .bool b => .bool b
  | .int n => .int n
  | .float x => .str x.canonical
  | .str text => .str text
  | .list items => .list (canonicalItems items)
  | .obj members => .obj (sortMembers (canonicalMembers members))

def canonicalItems : List Value → List (Document Empty)
  | [] => []
  | item :: rest => canonical item :: canonicalItems rest

def canonicalMembers : Members → List (Text × Document Empty)
  | [] => []
  | (key, value) :: rest => (key, canonical value) :: canonicalMembers rest

end

section

variable (quoted : Text → Text)

mutual

/-- `json.dumps(value, sort_keys=True, separators=(",", ":"))` of a canonical value, whose members
are in order, with the literals that texts are quoted in. -/
def dumps : Document Empty → Text
  | .null => points "null"
  | .bool b => points (if b then "true" else "false")
  | .int n => intCode n
  | .str text => quoted text
  | .list items => '['.toNat :: ([','.toNat].intercalate (dumpsItems items) ++ [']'.toNat])
  | .obj members => '{'.toNat :: ([','.toNat].intercalate (dumpsMembers members) ++ ['}'.toNat])

def dumpsItems : List (Document Empty) → List Text
  | [] => []
  | item :: rest => dumps item :: dumpsItems rest

def dumpsMembers : List (Text × Document Empty) → List Text
  | [] => []
  | (key, value) :: rest => (quoted key ++ ':'.toNat :: dumps value) :: dumpsMembers rest

end

end

def unitEscape (unit : ℕ) : Text :=
  points "\\u" ++ [unit / 0x1000, unit / 0x100 % 16, unit / 0x10 % 16, unit % 16].map hexPoint

def asciiPoint (point : ℕ) : Text :=
  if point < 0x7F then encodePoint point
  else if point < 0x10000 then unitEscape point
  else unitEscape (0xD800 + (point - 0x10000) / 0x400) ++
    unitEscape (0xDC00 + (point - 0x10000) % 0x400)

/-- The literal of a text under `ensure_ascii`. -/
def asciiLiteral (text : Text) : Text :=
  '"'.toNat :: (text.flatMap asciiPoint ++ ['"'.toNat])

def normalized (records : List Value) : List (Document Empty) :=
  (records.map canonical).insertionSort fun first second =>
    dumps asciiLiteral first ≤ dumps asciiLiteral second

def payload (records : List Value) : Text := dumps literal (.list (normalized records))

section

variable (sha256 : Text → Text)

def canonicalDigest (records : List Value) : Text := sha256 (payload records)

structure ProjectionIdentity where
  revision : ℕ
  digest : Text

/-- The state of a new `ProjectionRevisionTracker`. -/
def newTracker : ProjectionIdentity := ⟨0, canonicalDigest sha256 []⟩

/-- `ProjectionRevisionTracker.observe`. -/
def observe (tracker : ProjectionIdentity) (records : List Value) : ProjectionIdentity :=
  if canonicalDigest sha256 records ≠ tracker.digest then
    ⟨tracker.revision + 1, canonicalDigest sha256 records⟩
  else tracker

end

/-! ## Rows -/

/-- A row of the offered read, or of a mounting service's inventory. -/
structure ResourceRow where
  resource_id : Text
  pool_id : Option Text
  resource_type : Value
  resource_subtype : Value
  capacity : Option Members
  attributes : Option Members
  available : Option Members
  publication_views : Option Members
  publication_view_problems : Option Members
  enabled : Bool

/-- `_recorded_pool_id`. -/
def recordedPoolId (resource : ResourceRow) : Option Text := resource.pool_id.filter (· ≠ [])

def _POOL_METADATA_FIELDS : List Text :=
  ["label", "enabled", "mechanism", "policy_tags", "pool_views"].map points

/-- `_project_pool_metadata`. -/
def projectPoolMetadata (metadata : Members) : Members :=
  _POOL_METADATA_FIELDS.filterMap fun field =>
    match metadata.lookup field with
    | none | some .null => none
    | some value => some (field, value)

def projectedResource (resource : ResourceRow) : Value :=
  let optional (key : String) (members : Option Members) : Members :=
    (members.map fun members => (points key, Document.obj members)).toList
  .obj (
    [(points "physical_resource_id", .str resource.resource_id),
      (points "resource_type", resource.resource_type),
      (points "resource_subtype", resource.resource_subtype),
      (points "capacity", .obj (resource.capacity.getD [])),
      (points "attributes", .obj (resource.attributes.getD [])),
      (points "enabled", .bool resource.enabled)] ++
    optional "available" resource.available ++
    optional "publication_views" resource.publication_views ++
    optional "publication_view_problems" resource.publication_view_problems)

def poolRow (poolMetadata : Text → Option Members) (pool : Text × List (Text × Value)) : Value :=
  .obj (
    [(points "pool_id", .str pool.1),
      (points "resources", .list ((sortMembers pool.2).map Prod.snd))] ++
    ((poolMetadata pool.1).map fun metadata =>
      (points "pool_metadata", Document.obj (projectPoolMetadata metadata))).toList)

def poolEntry (resource : ResourceRow) : Option (Text × Text × Value) :=
  (recordedPoolId resource).map fun pool =>
    (pool, resource.resource_id, projectedResource resource)

def resourcePoolProjection (poolMetadata : Text → Option Members) (resources : List ResourceRow) :
    List Value :=
  (sortMembers (grouped (fun _ => []) (fun inventory row => inventory ++ [row])
    (resources.filterMap poolEntry))).map (poolRow poolMetadata)

/-- `_grouping_attributes`. -/
def groupingAttributes (resource : ResourceRow) : Members :=
  (resource.attributes.getD []).filter fun member =>
    member.1 ∉ ["resource_id", "physical_resource_id", "updated_at", "created_at"].map points

def criteria (resource : ResourceRow) : Option Members :=
  if resource.enabled then
    (recordedPoolId resource).map fun pool =>
      [(points "pool_id", .str pool),
        (points "resource_type", resource.resource_type),
        (points "resource_subtype", resource.resource_subtype),
        (points "available", .obj (resource.available.getD [])),
        (points "grouping_attributes", .obj (groupingAttributes resource))]
  else none

/-- A group of rows: the key, the criteria of its first row, and how many there are. -/
def bucketRow (group : Text × Members × ℕ) : Value :=
  .obj ((points "capacity_group_key", .str group.1) :: group.2.1 ++
    [(points "resource_count", .int group.2.2)])

section

variable (sha256 : Text → Text)

def bucketKey (criteria : Members) : Text := canonicalDigest sha256 [.obj criteria]

def capacityGroups (resources : List ResourceRow) : List (Text × Members × ℕ) :=
  sortMembers (grouped (fun criteria => (criteria, 0)) (fun group _ => (group.1, group.2 + 1))
    ((resources.filterMap criteria).map fun criteria => (bucketKey sha256 criteria, criteria)))

def capacityBucketProjection (resources : List ResourceRow) : List Value :=
  (capacityGroups sha256 resources).map bucketRow

end

end ComputeMarket.Site
