import ComputeMarket.Library.Codepoints
import ComputeMarket.Library.DecimalArithmetic
import ComputeMarket.Library.Run

/-!
# The comparison language

Lexing and parsing of `query_dsl.py`: a source is a list of tokens (`lexQuery`), and its tokens
are comparisons of a field with a literal (`parseQuery`). Neither knows what a field means.

`DigitTable` is what the language knows of the decimal digits of other scripts.
-/

namespace ComputeMarket.Query

open Texts DecimalArithmetic

/-- The decimal digits of Unicode, which `\d`, `int` and `Decimal` read; the ASCII ones are
themselves. -/
structure DigitTable where
  value : ℕ → Option ℕ
  ascii : ∀ point < 128, value point =
    if '0'.toNat ≤ point ∧ point ≤ '9'.toNat then some (point - '0'.toNat) else none
  small : ∀ point digit, value point = some digit → digit < 10

def DigitTable.plain : DigitTable where
  value point :=
    if '0'.toNat ≤ point ∧ point ≤ '9'.toNat then some (point - '0'.toNat) else none
  ascii _ _ := rfl
  small point digit found := by
    split at found
    next range =>
      cases found
      have upper : point ≤ 57 := range.2
      change point - 48 < 10
      omega
    next => cases found

/-- `str.isspace` of a character. -/
def isSpace (point : ℕ) : Bool :=
  (9 ≤ point && point ≤ 13) || (28 ≤ point && point ≤ 32) || point = 0x85 || point = 0xA0 ||
    point = 0x1680 || (0x2000 ≤ point && point ≤ 0x200A) || point = 0x2028 || point = 0x2029 ||
    point = 0x202F || point = 0x205F || point = 0x3000

def isLetter (point : ℕ) : Bool :=
  ('a'.toNat ≤ point && point ≤ 'z'.toNat) || ('A'.toNat ≤ point && point ≤ 'Z'.toNat)

def isDigit (point : ℕ) : Bool := '0'.toNat ≤ point && point ≤ '9'.toNat

def matchesWord (more : Text) : Text → Bool
  | [] => false
  | first :: rest =>
    (isLetter first || first == '_'.toNat) &&
      rest.all fun point => isLetter point || isDigit point || more.contains point

/-- `_FIELD_RE`. -/
def isField : Text → Bool := matchesWord (points "_.-")

/-- `_SAFE_STRING_RE`. -/
def isSafeString : Text → Bool := matchesWord (points "_./:@+-")

/-! ## Tokens -/

inductive ComparisonOperator
  | equal
  | notEqual
  | lessThan
  | lessThanOrEqual
  | greaterThan
  | greaterThanOrEqual
  | isIn
  | notIn
  deriving DecidableEq

def ComparisonOperator.value : ComparisonOperator → Text
  | .equal => points "="
  | .notEqual => points "!="
  | .lessThan => points "<"
  | .lessThanOrEqual => points "<="
  | .greaterThan => points ">"
  | .greaterThanOrEqual => points ">="
  | .isIn => points "in"
  | .notIn => points "notin"

/-- `ComparisonOperator(text)`. -/
def ComparisonOperator.ofText? (text : Text) : Option ComparisonOperator :=
  [equal, notEqual, lessThan, lessThanOrEqual, greaterThan, greaterThanOrEqual, isIn, notIn].find?
    fun operator => operator.value = text

inductive TokenKind
  | atom
  | string
  | operator
  | leftBracket
  | rightBracket
  | comma
  | unsupported
  deriving DecidableEq

structure SourceSpan where
  start : ℕ
  stop : ℕ
  deriving DecidableEq

structure QueryToken where
  kind : TokenKind
  text : Text
  span : SourceSpan
  value : Option Text

/-- `code` of a `QueryError`. -/
inductive QueryErrorCode
  | unsupportedCharacter
  | invalidStringEscape
  | unterminatedString
  | emptyQuery
  | unsupportedSyntax
  | expectedField
  | expectedOperator
  | expectedValue
  | expectedListValue
  | expectedComma
  | unterminatedList
  | invalidDecimal
  | unknownField
  | unsupportedOperator
  | duplicateField
  | missingCoRequirement
  | invalidValueShape
  | emptyList
  | invalidValueType
  deriving DecidableEq

inductive QueryFailure
  /-- `QuerySyntaxError`. -/
  | syntaxError (code : QueryErrorCode) (position : ℕ) (field : Option Text)
  /-- `QueryValidationError`. -/
  | validationError (code : QueryErrorCode) (position : ℕ) (field : Text) (accepted_fields : List Text)
  /-- `ValueError`. -/
  | valueError
  deriving DecidableEq

/-! ## Lexing -/

def punctuation? (point : ℕ) : Option TokenKind :=
  if point = '('.toNat ∨ point = ')'.toNat then some .unsupported
  else if point = '['.toNat then some .leftBracket
  else if point = ']'.toNat then some .rightBracket
  else if point = ','.toNat then some .comma
  else none

/-- `_SYMBOLIC_OPERATORS`. -/
def SYMBOLIC_OPERATORS : List Text := ["!=", "<=", ">=", "=", "<", ">"].map points

def symbolicOperator? (source : Text) : Option Text :=
  SYMBOLIC_OPERATORS.find? fun candidate => candidate.isPrefixOf source

def inAtom (point : ℕ) : Bool :=
  !isSpace point && !(points "[]=!<>,()").contains point

theorem symbolicOperator?_ne_nil {source operator : Text}
    (found : symbolicOperator? source = some operator) : operator ≠ [] := by
  rintro rfl
  exact absurd (List.mem_of_find?_eq_some found) (by decide)

/-- The token of a quoted string whose inside was scanned, at the position of its quote. -/
def stringToken (start : ℕ) (inside : Text) : Except QueryFailure QueryToken :=
  match decodeString inside with
  | none => .error (.syntaxError .invalidStringEscape start none)
  | some value =>
    .ok ⟨.string, '"'.toNat :: inside ++ ['"'.toNat], ⟨start, start + inside.length + 2⟩, some value⟩

def wordToken (start : ℕ) (word : Text) : QueryToken :=
  ⟨if word = points "in" ∨ word = points "notin" then .operator else .atom, word,
    ⟨start, start + word.length⟩, some word⟩

/-- The loop of `lex_query`, from a position on. -/
def lexFrom (index : ℕ) (source : Text) : Except QueryFailure (List QueryToken) :=
  match source with
  | [] => .ok []
  | point :: rest =>
    if isSpace point then lexFrom (index + 1) rest
    else
      match punctuation? point with
      | some kind =>
        (⟨kind, [point], ⟨index, index + 1⟩, none⟩ :: ·) <$> lexFrom (index + 1) rest
      | none =>
        if point = '"'.toNat then
          match found : scanString false rest with
          | none => .error (.syntaxError .unterminatedString index none)
          | some (inside, behind) => do
              let token ← stringToken index inside
              (token :: ·) <$> lexFrom (index + inside.length + 2) behind
        else
          match _found : symbolicOperator? (point :: rest) with
          | some operator =>
            (⟨.operator, operator, ⟨index, index + operator.length⟩, none⟩ :: ·) <$>
              lexFrom (index + operator.length) ((point :: rest).drop operator.length)
          | none =>
            if inAtom point then
              let word := (point :: rest).takeWhile inAtom
              (wordToken index word :: ·) <$>
                lexFrom (index + word.length) (rest.dropWhile inAtom)
            else .error (.syntaxError .unsupportedCharacter index none)
termination_by source.length
decreasing_by
  · exact Nat.lt_succ_self _
  · exact Nat.lt_succ_self _
  · exact (length_of_scanString found).trans (Nat.lt_succ_self _)
  · have some' := List.length_pos_iff.mpr (symbolicOperator?_ne_nil _found)
    simp only [List.length_drop, List.length_cons]
    omega
  · exact Nat.lt_succ_of_le (List.dropWhile_sublist _).length_le

def lexQuery (source : Text) : Except QueryFailure (List QueryToken) :=
  lexFrom 0 source

/-! ## Literals -/

inductive ScalarValue
  | str (text : Text)
  | int (number : ℤ)
  | decimal (number : Decimal)
  | bool (truth : Bool)
  deriving DecidableEq

inductive LiteralValue
  | scalar (value : ScalarValue)
  | list (values : List ScalarValue)
  deriving DecidableEq

structure QueryLiteral where
  value : LiteralValue
  span : SourceSpan

/-- The digits that `int` reads of a text, at most. -/
def MAX_STR_DIGITS : ℕ := 4300

def MAX_PREC : ℕ := 999999999999999999
def MAX_EMAX : ℤ := 999999999999999999
def MIN_ETINY : ℤ := -1999999999999999997

def signed : Text → Bool × Text
  | [] => (false, [])
  | point :: rest =>
    if point = '-'.toNat then (true, rest)
    else if point = '+'.toNat then (false, rest)
    else (false, point :: rest)

def underSign (negative : Bool) (number : ℕ) : ℤ := if negative then -number else number

/-- `\d+`, with the digits. -/
def DigitTable.digits? (table : DigitTable) (text : Text) : Option (List ℕ) :=
  if text = [] then none else text.mapM table.value

/-- `[+-]?\d+`, which is `_INTEGER_RE`, with the sign and the digits. -/
def DigitTable.integer? (table : DigitTable) (text : Text) : Option (Bool × List ℕ) :=
  (table.digits? (signed text).2).map fun digits => ((signed text).1, digits)

structure DecimalParts where
  negative : Bool
  whole : List ℕ
  fraction : List ℕ
  exponent : ℤ

/-- `[eE][+-]?\d+`, with its number. -/
def DigitTable.exponent? (table : DigitTable) (text : Text) : Option ℤ :=
  match text with
  | [] => none
  | letter :: rest =>
    if letter = 'e'.toNat ∨ letter = 'E'.toNat then
      (table.integer? rest).map fun parts => underSign parts.1 (numberOf parts.2)
    else none

def DigitTable.run (table : DigitTable) (text : Text) : List ℕ × Text :=
  (text.takeWhile (fun point => (table.value point).isSome) |>.filterMap table.value,
    text.dropWhile fun point => (table.value point).isSome)

/-- `_DECIMAL_RE`, with its parts. -/
def DigitTable.decimalParts? (table : DigitTable) (text : Text) : Option DecimalParts :=
  let whole := table.run (signed text).2
  let pointed := decide (whole.2.head? = some '.'.toNat)
  let fraction := if pointed then table.run whole.2.tail else ([], whole.2)
  if whole.1 = [] ∧ fraction.1 = [] then none
  else
    (if fraction.2 = [] then (if pointed then some 0 else none) else table.exponent? fraction.2).map
      fun exponent => ⟨(signed text).1, whole.1, fraction.1, exponent⟩

def DecimalParts.decimal (parts : DecimalParts) : Decimal :=
  ⟨underSign parts.negative (numberOf (parts.whole ++ parts.fraction)),
    parts.exponent - parts.fraction.length⟩

def Exact (decimal : Decimal) : Prop :=
  digits decimal.coefficient ≤ MAX_PREC ∧
    digits decimal.coefficient + decimal.exponent - 1 ≤ MAX_EMAX ∧ MIN_ETINY ≤ decimal.exponent

instance (decimal : Decimal) : Decidable (Exact decimal) :=
  inferInstanceAs (Decidable (_ ∧ _ ∧ _))

/-- `_token_scalar` of a word. -/
def wordScalar (table : DigitTable) (start : ℕ) (word : Text) : Except QueryFailure ScalarValue :=
  if word = points "true" then .ok (.bool true)
  else if word = points "false" then .ok (.bool false)
  else
    match table.integer? word with
    | some (negative, digits) =>
      if MAX_STR_DIGITS < digits.length then .error .valueError
      else .ok (.int (underSign negative (numberOf digits)))
    | none =>
      match table.decimalParts? word with
      | some parts =>
        if Exact parts.decimal then .ok (.decimal parts.decimal)
        else .error (.syntaxError .invalidDecimal start none)
      | none => .ok (.str word)

def tokenScalar (table : DigitTable) (token : QueryToken) : Except QueryFailure ScalarValue :=
  if token.kind = .string then .ok (.str (token.value.getD []))
  else wordScalar table token.span.start token.text

/-! ## Parsing -/

structure QueryComparison where
  field : Text
  operator : ComparisonOperator
  literal : QueryLiteral
  span : SourceSpan

structure QueryExpression where
  source : Text
  comparisons : List QueryComparison

/-- The loop of `_parse_literal` behind the bracket that opens a list. -/
def parseItems (table : DigitTable) (field : Text) (start : ℕ) (expect_value : Bool)
    (values : List ScalarValue) :
    List QueryToken → Except QueryFailure (QueryLiteral × List QueryToken)
  | [] => .error (.syntaxError .unterminatedList start (some field))
  | token :: rest =>
    if token.kind = .rightBracket then
      if expect_value = true ∧ values ≠ [] then
        .error (.syntaxError .expectedListValue token.span.start (some field))
      else .ok (⟨.list values, ⟨start, token.span.stop⟩⟩, rest)
    else if expect_value = true then
      if token.kind = .atom ∨ token.kind = .string then
        match tokenScalar table token with
        | .error failure => .error failure
        | .ok value => parseItems table field start false (values ++ [value]) rest
      else .error (.syntaxError .expectedListValue token.span.start (some field))
    else if token.kind = .comma then parseItems table field start true values rest
    else .error (.syntaxError .expectedComma token.span.start (some field))

/-- `_parse_literal`, of a token and those behind it. -/
def parseLiteral (table : DigitTable) (field : Text) (token : QueryToken) (rest : List QueryToken) :
    Except QueryFailure (QueryLiteral × List QueryToken) :=
  if token.kind = .unsupported then
    .error (.syntaxError .unsupportedSyntax token.span.start (some field))
  else if token.kind = .leftBracket then parseItems table field token.span.start true [] rest
  else if token.kind = .atom ∨ token.kind = .string then
    match tokenScalar table token with
    | .error failure => .error failure
    | .ok value => .ok (⟨.scalar value, token.span⟩, rest)
  else .error (.syntaxError .expectedValue token.span.start (some field))

theorem length_of_parseItems {table : DigitTable} {field : Text} {start : ℕ} {expect_value : Bool}
    {values : List ScalarValue} {tokens behind : List QueryToken} {literal : QueryLiteral}
    (parsed : parseItems table field start expect_value values tokens = .ok (literal, behind)) :
    behind.length ≤ tokens.length := by
  induction tokens generalizing expect_value values with
  | nil => cases parsed
  | cons token rest ih =>
    unfold parseItems at parsed
    split at parsed
    next =>
      obtain ⟨-, parsed⟩ := refuse_eq_ok.mp parsed
      cases parsed
      exact Nat.le_succ _
    next =>
      split at parsed
      next =>
        obtain ⟨-, parsed⟩ := require_eq_ok.mp parsed
        split at parsed
        next => cases parsed
        next => exact (ih parsed).trans (Nat.le_succ _)
      next =>
        obtain ⟨-, parsed⟩ := require_eq_ok.mp parsed
        exact (ih parsed).trans (Nat.le_succ _)

theorem length_of_parseLiteral {table : DigitTable} {field : Text} {token : QueryToken}
    {tokens behind : List QueryToken} {literal : QueryLiteral}
    (parsed : parseLiteral table field token tokens = .ok (literal, behind)) :
    behind.length ≤ tokens.length := by
  unfold parseLiteral at parsed
  obtain ⟨-, parsed⟩ := refuse_eq_ok.mp parsed
  split at parsed
  next => exact length_of_parseItems parsed
  next =>
    obtain ⟨-, parsed⟩ := require_eq_ok.mp parsed
    split at parsed
    next => cases parsed
    next =>
      cases parsed
      exact le_rfl

/-- The loop of `parse_query`. -/
def parseComparisons (table : DigitTable) (tokens : List QueryToken) :
    Except QueryFailure (List QueryComparison) :=
  match tokens with
  | [] => .ok []
  | field_token :: rest =>
    if field_token.kind = .unsupported then
      .error (.syntaxError .unsupportedSyntax field_token.span.start none)
    else if field_token.kind ≠ .atom ∨ isField field_token.text = false then
      .error (.syntaxError .expectedField field_token.span.start none)
    else
      match rest with
      | [] => .error (.syntaxError .expectedOperator field_token.span.stop (some field_token.text))
      | operator_token :: rest =>
        match ComparisonOperator.ofText? operator_token.text with
        | none =>
          .error (.syntaxError .expectedOperator operator_token.span.start
            (some field_token.text))
        | some operator =>
          match rest with
          | [] =>
            .error (.syntaxError .expectedValue operator_token.span.stop
              (some field_token.text))
          | token :: rest =>
            match _parsed : parseLiteral table field_token.text token rest with
            | .error failure => .error failure
            | .ok (literal, behind) =>
              (⟨field_token.text, operator, literal,
                ⟨field_token.span.start, literal.span.stop⟩⟩ :: ·) <$>
                parseComparisons table behind
termination_by tokens.length
decreasing_by
  have shorter := length_of_parseLiteral _parsed
  simp only [List.length_cons]
  omega

def parseQuery (table : DigitTable) (source : Text) : Except QueryFailure QueryExpression :=
  match lexQuery source with
  | .error failure => .error failure
  | .ok [] => .error (.syntaxError .emptyQuery 0 none)
  | .ok (token :: tokens) => (⟨source, ·⟩) <$> parseComparisons table (token :: tokens)

end ComputeMarket.Query
