import ComputeMarket.Query.Syntax

/-!
# Compiled queries

Validation and rendering of `query_dsl.py`: the comparisons of a source are resolved against the
descriptors of the fields (`compileQuery`), and a compiled query is written in its canonical text
(`renderCanonicalQuery`).
-/

namespace ComputeMarket.Query

open Texts DecimalArithmetic

inductive QueryValueType
  | string
  | integer
  | decimal
  | boolean

/-- `FieldDescriptor`, with what its constructor checks. -/
structure FieldDescriptor where
  name : Text
  value_type : QueryValueType
  operators : List ComparisonOperator
  aliases : List Text := []
  repeated : Bool := false
  requires : List Text := []
  fields : ∀ known ∈ name :: aliases, isField known = true
  distinct : (name :: aliases).Nodup
  allows : operators ≠ []
  apart : name ∉ requires

def FieldDescriptor.names (descriptor : FieldDescriptor) : List Text :=
  descriptor.name :: descriptor.aliases

/-- `_descriptor_maps` is built: no name is taken twice, and what a field requires is declared. -/
def Declared (descriptors : List FieldDescriptor) : Prop :=
  (descriptors.flatMap FieldDescriptor.names).Nodup ∧
    ∀ descriptor ∈ descriptors, ∀ target ∈ descriptor.requires,
      target ∈ descriptors.map FieldDescriptor.name

instance (descriptors : List FieldDescriptor) : Decidable (Declared descriptors) :=
  inferInstanceAs (Decidable (_ ∧ _))

/-- `by_name.get`. -/
def byName? (descriptors : List FieldDescriptor) (name : Text) : Option FieldDescriptor :=
  descriptors.find? fun descriptor => descriptor.names.contains name

/-- `tuple(sorted(by_name))`. -/
def acceptedFields (descriptors : List FieldDescriptor) : List Text :=
  (descriptors.flatMap FieldDescriptor.names).mergeSort

/-! ## Validation -/

structure ValidatedComparison where
  field : Text
  operator : ComparisonOperator
  value : LiteralValue
  span : SourceSpan
  deriving DecidableEq

structure ValidatedQuery where
  comparisons : List ValidatedComparison
  deriving DecidableEq

/-- `_validate_scalar`: the value as the type of the field has it. -/
def normalized? : QueryValueType → ScalarValue → Option ScalarValue
  | .string, .str text => some (.str text)
  | .integer, .int number => some (.int number)
  | .decimal, .int number => some (.decimal ⟨number, 0⟩)
  | .decimal, .decimal number => some (.decimal number)
  | .boolean, .bool truth => some (.bool truth)
  | _, _ => none

def ComparisonOperator.expectsList : ComparisonOperator → Bool
  | .isIn | .notIn => true
  | _ => false

/-- `_validate_literal_shape`, or the code of what it raises. -/
def validateLiteralShape (value_type : QueryValueType) (operator : ComparisonOperator) :
    LiteralValue → Except QueryErrorCode LiteralValue
  | .scalar value =>
    if operator.expectsList then .error .invalidValueShape
    else
      match normalized? value_type value with
      | none => .error .invalidValueType
      | some value => .ok (.scalar value)
  | .list values =>
    if ¬operator.expectsList then .error .invalidValueShape
    else if values = [] then .error .emptyList
    else
      match values.mapM (normalized? value_type) with
      | none => .error .invalidValueType
      | some values => .ok (.list values)

/-- A comparison of `validate_query`, where the fields in `seen` are supplied already. -/
def validateComparison (descriptors : List FieldDescriptor) (seen : List Text)
    (comparison : QueryComparison) : Except QueryFailure ValidatedComparison :=
  match byName? descriptors comparison.field with
  | none =>
    .error (.validationError .unknownField comparison.span.start comparison.field
      (acceptedFields descriptors))
  | some descriptor =>
    if comparison.operator ∉ descriptor.operators then
      .error (.validationError .unsupportedOperator comparison.span.start descriptor.name
        (acceptedFields descriptors))
    else if descriptor.name ∈ seen ∧ descriptor.repeated = false then
      .error (.validationError .duplicateField comparison.span.start descriptor.name
        (acceptedFields descriptors))
    else
      match validateLiteralShape descriptor.value_type comparison.operator
          comparison.literal.value with
      | .error code =>
        .error (.validationError code comparison.literal.span.start descriptor.name
          (acceptedFields descriptors))
      | .ok value => .ok ⟨descriptor.name, comparison.operator, value, comparison.span⟩

/-- The first loop of `validate_query`. -/
def validateComparisons (descriptors : List FieldDescriptor) (seen : List Text) :
    List QueryComparison → Except QueryFailure (List ValidatedComparison)
  | [] => .ok []
  | comparison :: rest =>
    match validateComparison descriptors seen comparison with
    | .error failure => .error failure
    | .ok validated =>
      (validated :: ·) <$> validateComparisons descriptors (validated.field :: seen) rest

def lacks (descriptors : List FieldDescriptor) (seen : List Text)
    (validated : ValidatedComparison) : Bool :=
  (byName? descriptors validated.field).any fun descriptor =>
    descriptor.requires.any fun target => !seen.contains target

def validateQuery (expression : QueryExpression) (descriptors : List FieldDescriptor) :
    Except QueryFailure ValidatedQuery :=
  if Declared descriptors then
    match validateComparisons descriptors [] expression.comparisons with
    | .error failure => .error failure
    | .ok validated =>
      match validated.find? (lacks descriptors (validated.map ValidatedComparison.field)) with
      | some comparison =>
        .error (.validationError .missingCoRequirement comparison.span.start comparison.field
          (acceptedFields descriptors))
      | none => .ok ⟨validated⟩
  else .error .valueError

def compileQuery (table : DigitTable) (source : Text) (descriptors : List FieldDescriptor) :
    Except QueryFailure ValidatedQuery :=
  match parseQuery table source with
  | .error failure => .error failure
  | .ok expression => validateQuery expression descriptors

/-! ## Rendering -/

/-- The context that `normalize` reads. -/
def rendering : Context := ⟨28, -999999, 999999⟩

def endingZeros (context : Context) (decimal : Decimal) : ℕ :=
  Nat.findGreatest
    (fun zeros => (10 : ℤ) ^ zeros ∣ decimal.coefficient ∧ decimal.exponent + zeros ≤ context.Emax)
    (digits decimal.coefficient)

/-- `normalize`: the decimal fixed in the context, without the zeros that end it. -/
def normalize (context : Context) (decimal : Decimal) : Except Context.Signal Decimal :=
  match context.finish decimal with
  | .error signal => .error signal
  | .ok fixed =>
    if fixed.coefficient = 0 then .ok ⟨0, 0⟩
    else .ok ⟨fixed.coefficient / 10 ^ endingZeros context fixed,
      fixed.exponent + endingZeros context fixed⟩

def signPoints (negative : Bool) : Text := if negative then ['-'.toNat] else []

/-- `str` of an integer. -/
def intPoints (number : ℤ) : Text :=
  signPoints (decide (number < 0)) ++ digitPoints (digitsOf number.natAbs)

/-- `format(decimal, "f")` of a coefficient: digits in front of the point, and as many behind it
as the exponent has places. -/
def fixedPoints (coefficient : ℕ) (exponent : ℤ) : Text :=
  if 0 ≤ exponent then
    digitPoints (digitsOf coefficient ++ List.replicate exponent.toNat 0)
  else
    let places := (-exponent).toNat
    let padded := List.replicate (places + 1 - (digitsOf coefficient).length) 0 ++
      digitsOf coefficient
    digitPoints (padded.take (padded.length - places)) ++ '.'.toNat ::
      digitPoints (padded.drop (padded.length - places))

def renderScalar : ScalarValue → Except Context.Signal Text
  | .bool truth => .ok (if truth then points "true" else points "false")
  | .decimal decimal =>
    if decimal.coefficient = 0 then .ok (points "0")
    else
      (fun normal => signPoints (decide (decimal.coefficient < 0)) ++
        fixedPoints normal.coefficient.natAbs normal.exponent) <$> normalize rendering decimal
  | .int number => .ok (intPoints number)
  | .str text =>
    if isSafeString text = true ∧
        text ∉ [points "true", points "false", points "in", points "notin"] then .ok text
    else .ok ('"'.toNat :: encodeString text ++ ['"'.toNat])

def renderLiteral : LiteralValue → Except Context.Signal Text
  | .scalar value => renderScalar value
  | .list values =>
    (fun texts => '['.toNat :: List.intercalate [','.toNat] texts ++ [']'.toNat]) <$>
      values.mapM renderScalar

/-- A comparison of `render_canonical_query`. -/
def renderComparison (comparison : ValidatedComparison) : Except Context.Signal Text :=
  (comparison.field ++ comparison.operator.value ++ ·) <$> renderLiteral comparison.value

def renderCanonicalQuery (query : ValidatedQuery) : Except Context.Signal Text :=
  List.intercalate [' '.toNat] <$> query.comparisons.mapM renderComparison

end ComputeMarket.Query
