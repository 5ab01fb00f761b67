import ComputeMarket.Library.DecimalTexts
import ComputeMarket.Shapes.Schema

/-!
# The price of a shape

`capability-pricing`: a shape's price from the rates of its families. Rates are decimal texts,
read digit by digit; what is summed is aligned to the longest fraction and written as plain
decimal text.

Integers are read from texts and written to them by the language, which refuses more than
`maxStrDigits` digits either way.
-/

namespace ComputeMarket.Shapes

open Texts

/-- `_exact`: the coefficient and the scale of a decimal text. -/
def exact (text : Text) : Option (ℕ × ℕ) :=
  if plainDecimal text then
    (intOf ((partition text).1 ++ (partition text).2)).map (·, (partition text).2.length)
  else none

/-- `[a-z][a-z0-9_-]*`. -/
def unitText (text : Text) : Bool :=
  match text with
  | [] => false
  | first :: rest =>
    ('a'.toNat ≤ first && first ≤ 'z'.toNat) &&
      rest.all fun point => ('a'.toNat ≤ point && point ≤ 'z'.toNat) || isDigit point ||
        point = '_'.toNat || point = '-'.toNat

/-! ## Rates, projections, prices -/

/-- `FamilyRate`, as its checks leave it. -/
structure FamilyRate where
  rate : Text
  per : Text
  positive : (exact rate).any (fun read => 0 < read.1) = true
  unit : unitText per = true

/-- `PricedFamily`: the quantity field that a family is priced by. -/
structure PricedFamily where
  quantity : Text

structure PricingProjection where
  families : Dict Text PricedFamily

@[ext]
structure ShapePrice where
  amount : Text
  per : Option Text

inductive PriceError
  /-- Rates are stated for families that nothing prices. -/
  | unpriced (families : List Text)
  /-- The shape names a family without a positive quantity. -/
  | quantity (family field : Text)
  | units (units : List Text)
  /-- The language does not convert an integer from a text or to one. -/
  | digits

structure Term where
  value : ℕ
  scale : ℕ
  per : Text

variable {φ : Type}

def positiveInt : Option (Document φ) → Option ℕ
  | some (.int n) => if 0 < n then some n.toNat else none
  | _ => none

def applicable (shape : Shape φ) (rates : Dict Text FamilyRate) : List Text :=
  (shape.keys.filter fun family => (rates.get? family).isSome).insertionSort (· ≤ ·)

def term (fields : Dict Text (Document φ)) (rate : FamilyRate) (family field : Text) :
    Except PriceError Term :=
  match positiveInt (fields.get? field) with
  | none => .error (.quantity family field)
  | some quantity =>
    match exact rate.rate with
    | none => .error .digits
    | some (coefficient, scale) => .ok ⟨coefficient * quantity, scale, rate.per⟩

/-- The turn of the loop for a family, looked up in all three mappings. -/
def termOf (shape : Shape φ) (rates : Dict Text FamilyRate) (projection : PricingProjection)
    (family : Text) : Except PriceError Term :=
  match shape.get? family, rates.get? family, projection.families.get? family with
  | some fields, some rate, some priced => term fields rate family priced.quantity
  | _, _, _ => .error (.unpriced [family])

def totalText (terms : List Term) : Option Text :=
  let scale := (terms.map Term.scale).foldl max 0
  let total := (terms.map fun term => term.value * 10 ^ (scale - term.scale)).sum
  (strOf total).map fun digits => decimalText digits scale

def linearPrice (shape : Shape φ) (rates : Dict Text FamilyRate) (projection : PricingProjection) :
    Except PriceError ShapePrice :=
  let unpriced := (rates.keys.filter fun family =>
    (projection.families.get? family).isNone).insertionSort (· ≤ ·)
  if unpriced ≠ [] then .error (.unpriced unpriced)
  else
    match (applicable shape rates).mapM (termOf shape rates projection) with
    | .error why => .error why
    | .ok terms =>
      match (terms.map Term.per).dedup with
      | [] => .ok ⟨points "0", none⟩
      | [per] =>
        match totalText terms with
        | none => .error .digits
        | some amount => .ok ⟨amount, some per⟩
      | units => .error (.units (units.insertionSort (· ≤ ·)))

end ComputeMarket.Shapes
