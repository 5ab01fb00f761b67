import ComputeMarket.Library.Run
import ComputeMarket.Library.Table
import Mathlib.Data.Rat.Floor

/-!
# Values, claims and amounts

The values a claim or a declaration carries (`kit/site/src/market_site/ledger.py`),
their parse into amounts, and the arithmetic the ledger does on them.

Amounts are rationals. What the language's decimal and float types add to that
is the `Arithmetic` record: the rounding of a decimal result to the context's
precision, the decimal that a stored JSON float reads back as, and the parse of
a number's text. A ledger takes it as a parameter, so nothing here depends on a
precision or on a rounding mode.
-/

namespace ComputeMarket.Site

inductive LedgerError
  | valueError (message : String)
  | overflowError
  | unknownPool (message : String)
  | capacityConflict (message : String)
  | undeclaredOfferingMode (message : String)
  /-- A primary key or a unique column is already taken. -/
  | integrityError (table : String)
  /-- Raised by what the composition supplied. -/
  | composition (message : String)
  deriving DecidableEq

/-- `repr` of a string without quotes or escapes in it. -/
def pyRepr (text : String) : String := "'" ++ text ++ "'"

/-! ## Values -/

/-- A JSON value as a claim, an attribute map or a policy tag carries it. A number
keeps its spelling beside its value; a list or a mapping is its canonical text. -/
inductive AttributeValue
  | null
  | bool (value : Bool)
  | number (value : ℚ) (spelling : String)
  | nonfinite (spelling : String)
  | text (value : String)
  | compound (canonical : String) (isEmpty : Bool)
  deriving DecidableEq

namespace AttributeValue

/-- `repr(value)`. -/
def repr : AttributeValue → String
  | null => "None"
  | bool true => "True"
  | bool false => "False"
  | number _ spelling => spelling
  | nonfinite spelling => spelling
  | text value => pyRepr value
  | compound canonical _ => canonical

/-- `str(value)`. -/
def str : AttributeValue → String
  | text value => value
  | value => value.repr

/-- `bool(value)`. -/
def truthy : AttributeValue → Bool
  | null => false
  | bool value => value
  | number value _ => value ≠ 0
  | nonfinite _ => true
  | text value => value ≠ ""
  | compound _ isEmpty => !isEmpty

def numeric? : AttributeValue → Option ℚ
  | bool value => some (if value then 1 else 0)
  | number value _ => some value
  | _ => none

/-- `first == second`. An infinity equals itself; a NaN equals nothing. -/
def pyEq (first second : AttributeValue) : Bool :=
  match first.numeric?, second.numeric? with
  | some x, some y => x = y
  | none, none =>
    match first, second with
    | nonfinite left, nonfinite right => left = right ∧ left ≠ "nan"
    | _, _ => first = second
  | _, _ => false

theorem pyEq_of_common {first second common : AttributeValue} (left : first.pyEq common = true)
    (right : second.pyEq common = true) : first.pyEq second = true := by
  cases first <;> cases second <;> cases common <;> simp_all [pyEq, numeric?]
  -- infinities of one spelling are left
  exact fun isNan => left.2 (left.1.trans isNan)

theorem pyEq_self {first second : AttributeValue} (equal : first.pyEq second = true) :
    second.pyEq second = true := by
  cases first <;> cases second <;> simp_all [pyEq, numeric?]
  exact fun isNan => equal.2 (equal.1.trans isNan)

end AttributeValue

/-- The characters `str.strip` removes. -/
def isPySpace (c : Char) : Bool :=
  c.val ∈ [9, 10, 11, 12, 13, 28, 29, 30, 31, 32, 0x85, 0xA0, 0x1680, 0x2000, 0x2001, 0x2002,
    0x2003, 0x2004, 0x2005, 0x2006, 0x2007, 0x2008, 0x2009, 0x200A, 0x2028, 0x2029, 0x202F,
    0x205F, 0x3000]

/-- `not text.strip()`. -/
def isBlank (text : String) : Bool := text.toList.all isPySpace

/-- `text == text.strip()`. -/
def isStripped (text : String) : Bool :=
  !(text.toList.head?.any isPySpace) && !(text.toList.getLast?.any isPySpace)

/-! ## Arithmetic -/

/-- What `Decimal(text)` makes of a text. -/
inductive DecimalText
  | invalid
  | nonfinite
  | finite (value : ℚ)

structure Arithmetic where
  /-- The result of a decimal operation, rounded to the context's precision. -/
  round : ℚ → ℚ
  /-- The decimal that the float nearest to a number is spelled as. -/
  float : ℚ → ℚ
  /-- `Decimal(text)`. -/
  decimalOfText : String → DecimalText
  /-- `int(text)`, `none` where the text spells no integer. -/
  intOfText : String → Option ℤ
  round_mono : Monotone round
  float_nonneg : ∀ q, 0 ≤ q → 0 ≤ float q

/-- Arithmetic without rounding, on claims whose numbers are spelled as numbers. -/
def Arithmetic.exact : Arithmetic where
  round := id
  float := id
  decimalOfText := fun _ => .invalid
  intOfText := fun _ => none
  round_mono := monotone_id
  float_nonneg := fun _ nonneg => nonneg

/-- `int(number)`: truncation towards zero. -/
def truncate (q : ℚ) : ℤ := if 0 ≤ q then ⌊q⌋ else ⌈q⌉

variable (arithmetic : Arithmetic)

/-- The part `_to_decimal` and `_to_decimal_nonneg` share: a finite number. -/
def finiteDecimal (value : AttributeValue) (label : String) : Except LedgerError ℚ :=
  let notNumeric := LedgerError.valueError s!"{label} must be numeric, got {value.repr}"
  let notFinite := LedgerError.valueError s!"{label} must be a finite number, got {value.repr}"
  match value with
  | .number q _ => .ok q
  | .nonfinite _ => .error notFinite
  | .text spelled =>
    match arithmetic.decimalOfText spelled with
    | .invalid => .error notNumeric
    | .nonfinite => .error notFinite
    | .finite q => .ok q
  | .null | .bool _ | .compound _ _ => .error notNumeric

def toDecimal (value : AttributeValue) (label : String) : Except LedgerError ℚ := do
  let amount ← finiteDecimal arithmetic value label
  if amount ≤ 0 then
    .error (.valueError s!"{label} must be > 0, got {value.str}")
  else
    .ok amount

/-- A JSON number for an amount: an integer where the amount is one, else a float.
What is stored so is read back by `Decimal(str(value))`. -/
def serialize (q : ℚ) : ℚ := if q.den = 1 then q else arithmetic.float q

/-- `_serialize_dimensions`, with the stored numbers as they are read back. -/
def serializeDimensions (dimensions : Dict String ℚ) : Dict String ℚ :=
  dimensions.mapValues (serialize arithmetic)

theorem serialize_nonneg {q : ℚ} (nonneg : 0 ≤ q) : 0 ≤ serialize arithmetic q := by
  unfold serialize
  split
  · exact nonneg
  · exact arithmetic.float_nonneg q nonneg

theorem serialize_intCast (k : ℤ) : serialize arithmetic (k : ℚ) = k := by
  simp [serialize]

theorem get?_serializeDimensions (dimensions : Dict String ℚ) (dimension : String) :
    (serializeDimensions arithmetic dimensions).get? dimension =
      (dimensions.get? dimension).map (serialize arithmetic) :=
  Dict.get?_mapValues dimensions _ dimension

/-! ## Claims -/

/-- What a claim's `dimensions` key holds. -/
inductive ClaimDimensions
  | other (value : AttributeValue)
  | mapping (items : Dict String AttributeValue)

/-- A claim: its `dimensions` key apart, the rest of the mapping. -/
structure Claim where
  dimensions : Option ClaimDimensions
  entries : Dict String AttributeValue

def Claim.empty : Claim := ⟨none, Table.empty⟩

/-- `claim.get(key) is not None`, with the value. -/
def Claim.present? (claim : Claim) (name : String) : Option AttributeValue :=
  match claim.entries.get? name with
  | some .null | none => none
  | some value => some value

def offeringModeClaimKey : String := "offering_mode"
def dimensionsClaimKey : String := "dimensions"

def requestedOfferingMode (claim : Claim) (required : Bool) :
    Except LedgerError (Option String) :=
  match claim.present? offeringModeClaimKey with
  | none =>
    if required then
      .error (.valueError
        s!"capacity claim must include explicit {offeringModeClaimKey}")
    else
      .ok none
  | some (.text mode) =>
    if isBlank mode || !isStripped mode then
      .error (.valueError s!"{offeringModeClaimKey} must be a non-empty canonical string")
    else
      .ok (some mode)
  | some _ =>
    .error (.valueError s!"{offeringModeClaimKey} must be a non-empty canonical string")

/-- `_requested_units`: the legacy single-quantity parse. -/
def requestedUnits (claim : Claim) (unitClaimKeys : List String) : Except LedgerError ℤ :=
  match unitClaimKeys.findSome? fun name => (claim.present? name).map (name, ·) with
  | none => .ok 1
  | some (name, raw) =>
    let notInteger :=
      LedgerError.valueError s!"{name} must be an integer, got {raw.repr}"
    let parsed : Except LedgerError ℤ :=
      match raw with
      | .bool _ => .error notInteger
      | .number q _ => .ok (truncate q)
      | .nonfinite spelled => if spelled = "nan" then .error notInteger else .error .overflowError
      | .text spelled =>
        match arithmetic.intOfText spelled with
        | some n => .ok n
        | none => .error notInteger
      | .null | .compound _ _ => .error notInteger
    match parsed with
    | .error raised => .error raised
    | .ok requested =>
      if requested < 1 then
        .error (.valueError s!"{name} must be >= 1, got {requested}")
      else
        .ok requested

/-- The amounts of a claim's `dimensions` mapping, each a positive number. -/
def decimalItems : List (String × AttributeValue) → Except LedgerError (List (String × ℚ))
  | [] => .ok []
  | (name, value) :: rest => do
      let amount ← toDecimal arithmetic value s!"dimensions[{name}]"
      let amounts ← decimalItems rest
      .ok ((name, amount) :: amounts)

/-- `_requested_dimensions`: the quantity request of a claim. Only the absence of
`dimensions` falls back to the single-quantity parse. -/
def requestedDimensions (claim : Claim) (unitClaimKeys : List String)
    (mirrorDimension : String) : Except LedgerError (Dict String ℚ) :=
  match claim.dimensions with
  | none => do
      let units ← requestedUnits arithmetic claim unitClaimKeys
      .ok (Dict.ofItems [(mirrorDimension, (units : ℚ))])
  | some (.other value) =>
    .error (.valueError s!"dimensions must be a non-empty mapping, got {value.repr}")
  | some (.mapping items) =>
    if items.rows = [] then
      .error (.valueError "dimensions must be a non-empty mapping, got \x7b\x7d")
    else do
      let amounts ← decimalItems arithmetic items.rows
      .ok (Dict.ofItems amounts)

/-- `_split_claim_requirement`: the resource kind a claim asks for and its
exact-match attributes, quantity keys left out. -/
def splitClaimRequirement (claim : Claim) (unitClaimKeys : List String) :
    Option AttributeValue × Dict String AttributeValue :=
  (claim.present? "resource_type",
    Dict.ofItems (claim.entries.rows.filter fun item =>
      item.1 ∉ unitClaimKeys ∧ item.1 ≠ dimensionsClaimKey ∧
        item.1 ≠ offeringModeClaimKey ∧ item.1 ≠ "resource_type"))

/-! ## What a parsed request is -/

variable {claim : Claim} {unitClaimKeys : List String}

theorem toDecimal_pos {value : AttributeValue} {label : String} {amount : ℚ}
    (parsed : toDecimal arithmetic value label = .ok amount) : 0 < amount := by
  unfold toDecimal at parsed
  obtain ⟨q, -, parsed⟩ := bind_eq_ok.mp parsed
  obtain ⟨positive, parsed⟩ := refuse_eq_ok.mp parsed
  cases parsed
  exact not_le.mp positive

theorem decimalItems_pos {items : List (String × AttributeValue)} {amounts : List (String × ℚ)}
    (parsed : decimalItems arithmetic items = .ok amounts) : ∀ item ∈ amounts, 0 < item.2 := by
  induction items generalizing amounts with
  | nil =>
    cases parsed
    intro item member
    cases member
  | cons head tail ih =>
    unfold decimalItems at parsed
    obtain ⟨amount, first, parsed⟩ := bind_eq_ok.mp parsed
    obtain ⟨rest, later, parsed⟩ := bind_eq_ok.mp parsed
    cases parsed
    intro item member
    rcases List.mem_cons.mp member with same | inTail
    · rw [same]
      exact toDecimal_pos arithmetic first
    · exact ih later item inTail

theorem requestedUnits_pos {units : ℤ}
    (parsed : requestedUnits arithmetic claim unitClaimKeys = .ok units) : 0 < units := by
  unfold requestedUnits at parsed
  split at parsed
  · cases parsed
    exact Int.one_pos
  · simp only at parsed
    split at parsed
    · cases parsed
    · obtain ⟨large, parsed⟩ := refuse_eq_ok.mp parsed
      cases parsed
      omega

theorem requestedDimensions_pos {mirrorDimension : String} {requested : Dict String ℚ}
    (parsed : requestedDimensions arithmetic claim unitClaimKeys mirrorDimension = .ok requested) :
    ∀ item ∈ requested, 0 < item.2 := by
  unfold requestedDimensions at parsed
  split at parsed
  · obtain ⟨units, found, parsed⟩ := bind_eq_ok.mp parsed
    cases parsed
    intro item member
    have single := Dict.mem_ofItems member
    rw [List.mem_singleton] at single
    rw [single]
    have positive := requestedUnits_pos arithmetic found
    change (0 : ℚ) < (units : ℚ)
    exact_mod_cast positive
  · cases parsed
  · obtain ⟨-, parsed⟩ := refuse_eq_ok.mp parsed
    obtain ⟨amounts, found, parsed⟩ := bind_eq_ok.mp parsed
    cases parsed
    intro item member
    exact decimalItems_pos arithmetic found item (Dict.mem_ofItems member)

theorem decimalItems_keys {items : List (String × AttributeValue)}
    {amounts : List (String × ℚ)} (parsed : decimalItems arithmetic items = .ok amounts) :
    amounts.map Prod.fst = items.map Prod.fst := by
  induction items generalizing amounts with
  | nil =>
    cases parsed
    rfl
  | cons head tail ih =>
    unfold decimalItems at parsed
    obtain ⟨amount, -, parsed⟩ := bind_eq_ok.mp parsed
    obtain ⟨rest, later, parsed⟩ := bind_eq_ok.mp parsed
    cases parsed
    rw [List.map_cons, List.map_cons, ih later]

theorem requestedDimensions_nonempty {mirrorDimension : String} {requested : Dict String ℚ}
    (parsed : requestedDimensions arithmetic claim unitClaimKeys mirrorDimension = .ok requested) :
    requested.rows ≠ [] := by
  unfold requestedDimensions at parsed
  split at parsed
  · obtain ⟨units, -, parsed⟩ := bind_eq_ok.mp parsed
    cases parsed
    exact Dict.ofItems_nonempty (List.cons_ne_nil _ _)
  · cases parsed
  · split at parsed
    · cases parsed
    next items named =>
    obtain ⟨amounts, found, parsed⟩ := bind_eq_ok.mp parsed
    cases parsed
    refine Dict.ofItems_nonempty fun none => named ?_
    have sameKeys := decimalItems_keys arithmetic found
    rw [none, List.map_nil] at sameKeys
    exact List.map_eq_nil_iff.mp sameKeys.symm

end ComputeMarket.Site
