import ComputeMarket.Query.Decimals

/-!
# The canonical text of a query

What is rendered of a compiled query, compiled again: one comparison at a time, its text is read
back as the comparison (`parseFrom_comparison`) or as none (`parseFrom_listed`), and the rest of
the text as the rest of the query. `rendering_faithful_iff` is when the text tells the query.
-/

namespace ComputeMarket.Query

open Texts DecimalArithmetic

def ScalarValue.Same : ScalarValue → ScalarValue → Prop
  | .decimal first, .decimal second => first.value = second.value
  | .str first, .str second => first = second
  | .int first, .int second => first = second
  | .bool first, .bool second => first = second
  | _, _ => False

def LiteralValue.Same : LiteralValue → LiteralValue → Prop
  | .scalar first, .scalar second => first.Same second
  | .list first, .list second => List.Forall₂ ScalarValue.Same first second
  | _, _ => False

def ValidatedComparison.Same (first second : ValidatedComparison) : Prop :=
  first.field = second.field ∧ first.operator = second.operator ∧ first.value.Same second.value

def Faithful (table : DigitTable) (descriptors : List FieldDescriptor) (query : ValidatedQuery) :
    Prop :=
  ∃ text, renderCanonicalQuery query = .ok text ∧
    ∃ again, compileQuery table text descriptors = .ok again ∧
      List.Forall₂ ValidatedComparison.Same again.comparisons query.comparisons ∧
      renderCanonicalQuery again = .ok text

/-- A comparison that its text tells: with a symbolic operator, of a field whose name is no
operator, with a decimal that is plain if it is one. -/
def ValidatedComparison.Renderable (comparison : ValidatedComparison) : Prop :=
  comparison.operator.expectsList = false ∧ comparison.field ≠ points "in" ∧
    comparison.field ≠ points "notin" ∧
    ∀ decimal, comparison.value = .scalar (.decimal decimal) → Plain decimal.value

/-! ## Words -/

variable {text : Text}

def IsWord (text : Text) : Prop :=
  text ≠ [] ∧ text.head? ≠ some '"'.toNat ∧ (∀ point ∈ text, inAtom point = true) ∧
    text ≠ points "in" ∧ text ≠ points "notin"

theorem wordToken_kind (isWord : IsWord text) (index : ℕ) :
    (wordToken index text).kind = .atom := by
  obtain ⟨-, -, -, isIn, notIn⟩ := isWord
  unfold wordToken
  dsimp only
  rw [if_neg]
  rintro (same | same)
  · exact isIn same
  · exact notIn same

theorem isWord_number (filled : text ≠ []) (all : ∀ point ∈ text, 45 ≤ point ∧ point ≤ 57) :
    IsWord text := by
  have first : ∀ point ∈ text.head?, 45 ≤ point ∧ point ≤ 57 := fun point here =>
    all point (List.mem_of_mem_head? here)
  refine ⟨filled, fun same => absurd (first _ same) (by decide), fun point inside => ?_, ?_, ?_⟩
  · obtain ⟨least, most⟩ := all point inside
    interval_cases point <;> decide
  · rintro rfl
    exact absurd (first 105 rfl) (by decide)
  · rintro rfl
    exact absurd (first 110 rfl) (by decide)

theorem digitPoints_range {digits : List ℕ} (small : ∀ digit ∈ digits, digit < 10) :
    ∀ point ∈ digitPoints digits, 45 ≤ point ∧ point ≤ 57 := by
  intro point inside
  obtain ⟨digit, member, rfl⟩ := List.mem_map.mp inside
  have one := small digit member
  change 45 ≤ 48 + digit ∧ 48 + digit ≤ 57
  omega

theorem signPoints_range {negative : Bool} {body : Text}
    (all : ∀ point ∈ body, 45 ≤ point ∧ point ≤ 57) :
    ∀ point ∈ signPoints negative ++ body, 45 ≤ point ∧ point ≤ 57 := by
  intro point inside
  rcases List.mem_append.mp inside with sign | there
  · cases negative with
    | true =>
      rw [List.mem_singleton.mp sign]
      decide
    | false => cases sign
  · exact all point there

theorem isWord_intPoints (number : ℤ) : IsWord (intPoints number) := by
  refine isWord_number ?_ (signPoints_range (digitPoints_range fun _ => lt_of_mem_digitsOf))
  exact List.append_ne_nil_of_right_ne_nil _ fun none =>
    digitsOf_ne_nil _ (List.map_eq_nil_iff.mp none)

theorem isWord_fixedPoints (negative : Bool) (coefficient : ℕ) (exponent : ℤ) :
    IsWord (signPoints negative ++ fixedPoints coefficient exponent) := by
  have zeros : ∀ count : ℕ, ∀ digit ∈ List.replicate count 0, digit < 10 := by
    intro count digit inside
    rw [List.eq_of_mem_replicate inside]
    decide
  refine isWord_number (List.append_ne_nil_of_right_ne_nil _ ?_) (signPoints_range ?_)
  · unfold fixedPoints
    split
    · exact fun none => digitsOf_ne_nil coefficient
        (List.append_eq_nil_iff.mp (List.map_eq_nil_iff.mp none)).1
    · exact List.append_ne_nil_of_right_ne_nil _ (List.cons_ne_nil _ _)
  · unfold fixedPoints
    split
    · refine digitPoints_range fun digit inside => ?_
      rcases List.mem_append.mp inside with there | zero
      · exact lt_of_mem_digitsOf there
      · exact zeros _ digit zero
    · dsimp only
      have small : ∀ digit ∈ List.replicate
          ((-exponent).toNat + 1 - (digitsOf coefficient).length) 0 ++ digitsOf coefficient,
          digit < 10 := by
        intro digit inside
        rcases List.mem_append.mp inside with zero | there
        · exact zeros _ digit zero
        · exact lt_of_mem_digitsOf there
      intro point inside
      rcases List.mem_append.mp inside with whole | rest
      · exact digitPoints_range (fun digit there => small digit (List.mem_of_mem_take there))
          point whole
      · rcases List.mem_cons.mp rest with rfl | fraction
        · decide
        · exact digitPoints_range (fun digit there => small digit (List.mem_of_mem_drop there))
            point fraction

theorem wordScalar_safeString (table : DigitTable) (start : ℕ) (safe : isSafeString text = true)
    (other : text ∉ [points "true", points "false", points "in", points "notin"]) :
    wordScalar table start text = .ok (.str text) ∧ IsWord text := by
  obtain ⟨first, rest, rfl, begins, all⟩ := isSafeString_cases safe
  simp only [List.mem_cons, List.not_mem_nil, or_false, not_or] at other
  obtain ⟨true', false', isIn, notIn⟩ := other
  have bounds : first < 128 ∧ isDigit first = false ∧ first ≠ '-'.toNat ∧ first ≠ '+'.toNat ∧
      first ≠ '.'.toNat ∧ first ≠ '"'.toNat := by
    have range : 97 ≤ first ∧ first ≤ 122 ∨ 65 ≤ first ∧ first ≤ 90 ∨ first = 95 := by
      rcases begins with letter | rfl
      · have letters : 97 ≤ first ∧ first ≤ 122 ∨ 65 ≤ first ∧ first ≤ 90 := by
          simpa [isLetter] using letter
        exact letters.imp_right Or.inl
      · exact .inr (.inr rfl)
    have digit : isDigit first = false := by
      rw [isDigit, Bool.and_eq_false_iff, decide_eq_false_iff_not, decide_eq_false_iff_not]
      change ¬48 ≤ first ∨ ¬first ≤ 57
      omega
    refine ⟨by omega, digit, ?_, ?_, ?_, ?_⟩
    · change first ≠ 45
      omega
    · change first ≠ 43
      omega
    · change first ≠ 46
      omega
    · change first ≠ 34
      omega
  obtain ⟨ascii, digit, minus, plus, point, quote⟩ := bounds
  have none' : table.value first = none := value_of_ascii ascii digit
  have unsigned : signed (first :: rest) = (false, first :: rest) := by
    rw [signed, if_neg minus, if_neg plus]
  refine ⟨?_, List.cons_ne_nil _ _, fun same => quote (Option.some.inj same), all, isIn, notIn⟩
  have integer : table.integer? (first :: rest) = none := by
    unfold DigitTable.integer? DigitTable.digits?
    rw [unsigned]
    dsimp only
    rw [if_neg (List.cons_ne_nil _ _), List.mapM_cons, none']
    rfl
  have run : table.run (first :: rest) = ([], first :: rest) := by
    unfold DigitTable.run
    rw [List.takeWhile_cons_of_neg (by rw [none']; decide),
      List.dropWhile_cons_of_neg (by rw [none']; decide)]
    rfl
  have decimal : table.decimalParts? (first :: rest) = none := by
    unfold DigitTable.decimalParts?
    rw [unsigned]
    dsimp only
    rw [run]
    have unpointed : decide ((first :: rest).head? = some '.'.toNat) = false :=
      decide_eq_false fun same => point (Option.some.inj same)
    dsimp only
    rw [unpointed, if_neg Bool.false_ne_true, if_pos ⟨rfl, rfl⟩]
  unfold wordScalar
  rw [if_neg true', if_neg false', integer, decimal]

/-! ## One comparison -/

variable {table : DigitTable} {value : ScalarValue} {operator : ComparisonOperator} {field : Text}
    {token : QueryToken} {tokens : List QueryToken} {comparisons : List QueryComparison}

def readOf (table : DigitTable) (index : ℕ) (value : ScalarValue) (text : Text) :
    Except QueryFailure ScalarValue :=
  match value with
  | .str text => .ok (.str text)
  | _ => wordScalar table index text

def OneToken (table : DigitTable) (index : ℕ) (value : ScalarValue) (text : Text) : Prop :=
  text.head? ≠ some '='.toNat ∧ ∃ token : QueryToken,
    (token.kind = .atom ∨ token.kind = .string) ∧ token.span = ⟨index, index + text.length⟩ ∧
    (∀ behind, Bounded behind → lexFrom index (text ++ behind) =
      (token :: ·) <$> lexFrom (index + text.length) behind) ∧
    tokenScalar table token = readOf table index value text

theorem oneToken_of_word {index : ℕ} (isWord : IsWord text)
    (read : wordScalar table index text = readOf table index value text) :
    OneToken table index value text := by
  have kind := wordToken_kind isWord index
  obtain ⟨filled, quote, all, -, -⟩ := isWord
  refine ⟨fun same => ?_, wordToken index text, .inl kind, rfl, fun behind bounded =>
    lexFrom_word index behind filled quote all bounded.ends, ?_⟩
  · exact absurd (all _ (List.mem_of_mem_head? same)) (by decide)
  · unfold tokenScalar
    rw [kind, if_neg (by decide)]
    exact read

theorem renderScalar_str (written : Text) : renderScalar (.str written) =
    if isSafeString written = true ∧
        written ∉ [points "true", points "false", points "in", points "notin"] then .ok written
    else .ok ('"'.toNat :: encodeString written ++ ['"'.toNat]) :=
  rfl

theorem renderScalar_token (table : DigitTable) (rendered : renderScalar value = .ok text)
    (index : ℕ) : OneToken table index value text := by
  cases value with
  | bool truth =>
    cases rendered
    refine oneToken_of_word ?_ rfl
    cases truth with
    | true => exact ⟨by decide, by decide, by decide, by decide, by decide⟩
    | false => exact ⟨by decide, by decide, by decide, by decide, by decide⟩
  | int number =>
    cases rendered
    exact oneToken_of_word (isWord_intPoints number) rfl
  | decimal number =>
    rw [renderScalar_decimal] at rendered
    split at rendered
    next =>
      cases rendered
      exact oneToken_of_word ⟨by decide, by decide, by decide, by decide, by decide⟩ rfl
    next =>
      obtain ⟨normal, -, rfl⟩ := map_eq_ok.mp rendered
      exact oneToken_of_word (isWord_fixedPoints _ _ _) rfl
  | str written =>
    rw [renderScalar_str] at rendered
    split at rendered
    next plain =>
      cases rendered
      obtain ⟨read, isWord⟩ := wordScalar_safeString table index plain.1 plain.2
      exact oneToken_of_word isWord read
    next =>
      cases rendered
      refine ⟨fun same => absurd (Option.some.inj same) (by decide), ⟨.string, '"'.toNat :: encodeString written ++ ['"'.toNat],
        ⟨index, index + (encodeString written).length + 2⟩, some written⟩, .inr rfl, ?_,
        fun behind bounded => ?_, rfl⟩
      · simp [Nat.add_assoc]
      · rw [lexFrom_string]
        simp [Nat.add_assoc]

def parseFrom (table : DigitTable) (index : ℕ) (source : Text) :
    Except QueryFailure (List QueryComparison) :=
  lexFrom index source >>= parseComparisons table

theorem parseFrom_nil (table : DigitTable) (index : ℕ) : parseFrom table index [] = .ok [] := by
  unfold parseFrom
  rw [lexFrom_nil]
  change parseComparisons table [] = .ok []
  rw [parseComparisons]

theorem parseFrom_space (table : DigitTable) (index : ℕ) (behind : Text) :
    parseFrom table index (' '.toNat :: behind) = parseFrom table (index + 1) behind := by
  unfold parseFrom
  rw [lexFrom_space]

theorem ofText?_value (operator : ComparisonOperator) :
    ComparisonOperator.ofText? operator.value = some operator := by
  cases operator <;> decide

theorem value_ends (symbolic : operator.expectsList = false) (behind : Text) :
    ∀ point ∈ (operator.value ++ behind).head?, inAtom point = false := by
  intro point here
  cases operator with
  | isIn => cases symbolic
  | notIn => cases symbolic
  | equal => cases here; decide
  | notEqual => cases here; decide
  | lessThan => cases here; decide
  | lessThanOrEqual => cases here; decide
  | greaterThan => cases here; decide
  | greaterThanOrEqual => cases here; decide

theorem lexFrom_field (isField' : isField field = true) (symbolic : operator.expectsList = false)
    (index : ℕ) (behind : Text) :
    lexFrom index (field ++ (operator.value ++ behind)) =
      (wordToken index field :: ·) <$> lexFrom (index + field.length) (operator.value ++ behind) := by
  obtain ⟨first, rest, rfl, begins, all⟩ := isField_cases isField'
  refine lexFrom_word index _ (List.cons_ne_nil _ _) ?_ all (value_ends symbolic behind)
  intro same
  cases Option.some.inj same
  rcases begins with letter | low
  · exact absurd letter (by decide)
  · exact absurd low (by decide)

theorem parseComparisons_tokens {field_token operator_token : QueryToken}
    (atom : field_token.kind = .atom) (isField' : isField field_token.text = true)
    (read : ComparisonOperator.ofText? operator_token.text = some operator) :
    parseComparisons table (field_token :: operator_token :: token :: tokens) = .ok comparisons ↔
      ∃ literal behind rest, parseLiteral table field_token.text token tokens = .ok (literal, behind) ∧
        parseComparisons table behind = .ok rest ∧
        comparisons = ⟨field_token.text, operator, literal,
          ⟨field_token.span.start, literal.span.stop⟩⟩ :: rest := by
  have named : ¬(field_token.kind ≠ .atom ∨ isField field_token.text = false) := by
    rintro (never | never)
    · exact never atom
    · exact absurd (isField'.symm.trans never) (by decide)
  rw [parseComparisons, if_neg (by rw [atom]; decide), if_neg named]
  dsimp only
  rw [read]
  dsimp only
  split
  next failure parsed =>
    refine iff_of_false (fun never => by cases never) ?_
    rintro ⟨literal, behind, rest, other, -, -⟩
    rw [parsed] at other
    cases other
  next literal behind parsed =>
    rw [map_eq_ok]
    constructor
    · rintro ⟨rest, others, rfl⟩
      exact ⟨literal, behind, rest, parsed, others, rfl⟩
    · rintro ⟨literal', behind', rest, parsed', others, rfl⟩
      cases parsed.symm.trans parsed'
      exact ⟨rest, others, rfl⟩

/-- **A comparison of a symbolic operator is read back**, with the value that its token is
read as. -/
theorem parseFrom_comparison (table : DigitTable) {behind : Text} (isField' : isField field = true)
    (isIn : field ≠ points "in") (notIn : field ≠ points "notin")
    (symbolic : operator.expectsList = false) (rendered : renderScalar value = .ok text)
    (bounded : Bounded behind) (index : ℕ) :
    parseFrom table index (field ++ (operator.value ++ (text ++ behind))) = .ok comparisons ↔
      ∃ read rest, readOf table (index + field.length + operator.value.length) value text = .ok read ∧
        parseFrom table (index + field.length + operator.value.length + text.length) behind =
          .ok rest ∧
        comparisons = ⟨field, operator,
          ⟨.scalar read, ⟨index + field.length + operator.value.length,
            index + field.length + operator.value.length + text.length⟩⟩,
          ⟨index, index + field.length + operator.value.length + text.length⟩⟩ :: rest := by
  obtain ⟨equality, token, kind, span, lexed, scalar⟩ :=
    renderScalar_token table rendered (index + field.length + operator.value.length)
  have ends : (text ++ behind).head? ≠ some '='.toNat := by
    cases text with
    | nil =>
      rcases bounded with rfl | ⟨rest, rfl⟩
      · exact fun none => by cases none
      · exact fun same => absurd (Option.some.inj same) (by decide)
    | cons point rest => exact equality
  unfold parseFrom
  rw [lexFrom_field isField' symbolic, lexFrom_operator _ _ symbolic ends, lexed behind bounded]
  generalize lexFrom _ behind = others
  cases others with
  | error failure =>
    refine iff_of_false (fun never => by cases never) ?_
    rintro ⟨read, rest, -, never, -⟩
    cases never
  | ok tokens =>
    change parseComparisons table (wordToken index field :: ⟨.operator, operator.value, _, none⟩ ::
      token :: tokens) = _ ↔ _
    have atom : (wordToken index field).kind = .atom := by
      unfold wordToken
      dsimp only
      rw [if_neg]
      rintro (same | same)
      · exact isIn same
      · exact notIn same
    have unsupported : token.kind ≠ .unsupported := by
      intro same
      rw [same] at kind
      rcases kind with never | never <;> cases never
    have bracket : token.kind ≠ .leftBracket := by
      intro same
      rw [same] at kind
      rcases kind with never | never <;> cases never
    rw [parseComparisons_tokens atom isField' (ofText?_value operator)]
    have literal : ∀ literal behind, parseLiteral table field token tokens = .ok (literal, behind) ↔
        ∃ read, readOf table (index + field.length + operator.value.length) value text = .ok read ∧
          literal = ⟨.scalar read, token.span⟩ ∧ behind = tokens := by
      intro literal behind
      unfold parseLiteral
      rw [if_neg unsupported, if_neg bracket, if_pos kind, scalar]
      cases readOf table (index + field.length + operator.value.length) value text with
      | error failure =>
        refine iff_of_false (fun never => by cases never) ?_
        rintro ⟨read, never, -, -⟩
        cases never
      | ok read =>
        constructor
        · intro done
          cases done
          exact ⟨read, rfl, rfl, rfl⟩
        · rintro ⟨_, same, rfl, rfl⟩
          cases same
          rfl
    constructor
    · rintro ⟨literal', behind', rest, parsed, others, rfl⟩
      obtain ⟨read, done, rfl, rfl⟩ := (literal _ _).mp parsed
      refine ⟨read, rest, done, others, ?_⟩
      rw [span]
      rfl
    · rintro ⟨read, rest, done, others, rfl⟩
      refine ⟨_, tokens, rest, (literal _ _).mpr ⟨read, done, rfl, rfl⟩, others, ?_⟩
      rw [span]
      rfl

/-- **A comparison of an operator of lists is not read back**: the word of the operator is the
end of the word of the field. -/
theorem parseFrom_listed (table : DigitTable) (isField' : isField field = true)
    (listed : operator.expectsList = true) (index : ℕ) (behind : Text)
    (comparisons : List QueryComparison) :
    parseFrom table index (field ++ (operator.value ++ '['.toNat :: behind)) ≠ .ok comparisons := by
  obtain ⟨first, rest, rfl, begins, all⟩ := isField_cases isField'
  have value : ∀ point ∈ operator.value, inAtom point = true := by
    cases operator with
    | isIn => decide
    | notIn => decide
    | equal => cases listed
    | notEqual => cases listed
    | lessThan => cases listed
    | lessThanOrEqual => cases listed
    | greaterThan => cases listed
    | greaterThanOrEqual => cases listed
  have joined : ∀ point ∈ first :: rest ++ operator.value, inAtom point = true := by
    intro point inside
    rcases List.mem_append.mp inside with there | there
    · exact all point there
    · exact value point there
  have quote : (first :: rest ++ operator.value).head? ≠ some '"'.toNat := by
    intro same
    cases Option.some.inj same
    rcases begins with letter | low
    · exact absurd letter (by decide)
    · exact absurd low (by decide)
  unfold parseFrom
  rw [← List.append_assoc, lexFrom_word index _ (List.append_ne_nil_of_left_ne_nil (List.cons_ne_nil _ _) _)
    quote joined (fun point here => by cases here; decide), lexFrom_bracket]
  generalize lexFrom _ behind = others
  cases others with
  | error failure => exact fun never => by cases never
  | ok tokens =>
    change parseComparisons table (wordToken index _ :: ⟨.leftBracket, ['['.toNat], _, none⟩ ::
      tokens) ≠ _
    have none' : ComparisonOperator.ofText? ['['.toNat] = none := by decide
    rw [parseComparisons]
    split
    next => exact fun never => by cases never
    split
    next => exact fun never => by cases never
    dsimp only
    rw [none']
    exact fun never => by cases never

theorem parseFrom_keyword (table : DigitTable) (isField' : isField field = true)
    (keyword : field = points "in" ∨ field = points "notin")
    (symbolic : operator.expectsList = false) (index : ℕ) (behind : Text)
    (comparisons : List QueryComparison) :
    parseFrom table index (field ++ (operator.value ++ behind)) ≠ .ok comparisons := by
  unfold parseFrom
  rw [lexFrom_field isField' symbolic]
  generalize lexFrom _ _ = others
  cases others with
  | error failure => exact fun never => by cases never
  | ok tokens =>
    change parseComparisons table (wordToken index field :: tokens) ≠ _
    have kind : (wordToken index field).kind = .operator := by
      unfold wordToken
      exact if_pos keyword
    rw [parseComparisons.eq_def]
    dsimp only
    rw [kind, if_neg (by decide), if_pos (.inl (by decide))]
    exact fun never => by cases never

/-! ## Values -/

variable {value_type : QueryValueType}

def Sound (value : ScalarValue) : Prop :=
  ∀ number, value = .int number → number.natAbs < 10 ^ MAX_STR_DIGITS

theorem normalized?_self {normal : ScalarValue}
    (typed : normalized? value_type value = some normal) :
    normalized? value_type normal = some normal := by
  cases value_type <;> cases value <;> cases typed <;> rfl

theorem normalized?_decimal {number : Decimal}
    (typed : normalized? value_type value = some (.decimal number)) : value_type = .decimal := by
  cases value_type <;> cases value <;> cases typed <;> rfl

def Told (value : ScalarValue) : Prop := ∀ number, value = .decimal number → Plain number.value

theorem plain_zero : Plain 0 := by
  refine ⟨⟨0, 0, by norm_num, by decide, by decide⟩, fun whole same => ?_⟩
  have zero : whole = 0 := by exact_mod_cast same.symm
  rw [zero]
  exact Nat.pow_pos (by decide)

/-- **A value whose text tells it is read back.** -/
theorem reread_of_told (table : DigitTable) (index : ℕ) {written : ScalarValue}
    (typed : normalized? value_type written = some value) (sound : Sound written)
    (told : Told value) :
    ∃ text, renderScalar value = .ok text ∧ ∃ read again, readOf table index value text = .ok read ∧
      normalized? value_type read = some again ∧ again.Same value ∧ renderScalar again = .ok text := by
  have self := normalized?_self typed
  cases value with
  | str text =>
    rw [renderScalar_str]
    split
    next plain =>
      exact ⟨text, rfl, .str text, .str text, rfl, self, rfl, by rw [renderScalar_str, if_pos plain]⟩
    next quoted =>
    exact ⟨_, rfl, .str text, .str text, rfl, self, rfl, by rw [renderScalar_str, if_neg quoted]⟩
  | bool truth =>
    refine ⟨_, rfl, .bool truth, .bool truth, ?_, self, rfl, rfl⟩
    change wordScalar table index _ = _
    unfold wordScalar
    cases truth with
    | true => rfl
    | false => rfl
  | int number =>
    have bounded : number.natAbs < 10 ^ MAX_STR_DIGITS := by
      refine sound number ?_
      cases value_type <;> cases written <;> cases typed
      rfl
    refine ⟨_, rfl, .int number, .int number, ?_, self, rfl, rfl⟩
    change wordScalar table index (intPoints number) = _
    rw [wordScalar_intPoints, if_neg (not_lt.mpr ((length_digitsOf_le (by decide)).mpr bounded))]
  | decimal number =>
    cases normalized?_decimal typed
    rw [renderScalar_decimal]
    split
    next zero =>
      refine ⟨points "0", rfl, .int 0, .decimal ⟨0, 0⟩, ?_, rfl, ?_, rfl⟩
      · exact (wordScalar_intPoints table index 0).trans (if_neg (by decide))
      · change (⟨0, 0⟩ : Decimal).value = number.value
        rw [value_eq_zero.mpr zero]
        exact value_eq_zero.mpr rfl
    next filled =>
      have plain := told number rfl
      obtain ⟨normal, read, reread, done, scalar, typed', same⟩ :=
        reread_of_plain table index filled plain
      refine ⟨_, map_eq_ok.mpr ⟨normal, done, rfl⟩, read, .decimal reread, scalar, typed', same, ?_⟩
      rw [renderScalar_congr plain same, renderScalar_decimal, if_neg filled]
      exact map_eq_ok.mpr ⟨normal, done, rfl⟩

/-- **A value that is read back is one that its text tells.** -/
theorem told_of_reread (table : DigitTable) (index : ℕ) {read again : ScalarValue}
    (typed : normalized? value_type value = some value) (rendered : renderScalar value = .ok text)
    (done : readOf table index value text = .ok read)
    (typed' : normalized? value_type read = some again) (same : again.Same value) : Told value := by
  rintro number rfl
  cases normalized?_decimal typed
  rw [renderScalar_decimal] at rendered
  split at rendered
  next zero =>
    rw [value_eq_zero.mpr zero]
    exact plain_zero
  next filled =>
  obtain ⟨normal, normalizes, rfl⟩ := map_eq_ok.mp rendered
  cases again with
  | decimal reread => exact plain_of_reread table index filled normalizes done typed' same
  | str text => exact same.elim
  | int number => exact same.elim
  | bool truth => exact same.elim

/-! ## What was compiled -/

theorem exists_of_mapM {α β : Type} {f : α → Option β} {inputs : List α} {results : List β}
    (mapped : inputs.mapM f = some results) : ∀ result ∈ results, ∃ input ∈ inputs,
      f input = some result := by
  induction inputs generalizing results with
  | nil =>
    cases mapped
    exact fun _ never => by cases never
  | cons input rest ih =>
    rw [List.mapM_cons] at mapped
    obtain ⟨first, here, mapped⟩ := Option.bind_eq_some_iff.mp mapped
    obtain ⟨others, there, mapped⟩ := Option.bind_eq_some_iff.mp mapped
    cases mapped
    intro result inside
    rcases List.mem_cons.mp inside with rfl | behind
    · exact ⟨input, List.mem_cons_self, here⟩
    · obtain ⟨other, member, value⟩ := ih there result behind
      exact ⟨other, List.mem_cons_of_mem _ member, value⟩

theorem numberOf_integer {word : Text} {negative : Bool} {digits : List ℕ}
    (read : table.integer? word = some (negative, digits)) :
    numberOf digits < 10 ^ digits.length := by
  unfold DigitTable.integer? DigitTable.digits? at read
  obtain ⟨found, mapped, same⟩ := Option.map_eq_some_iff.mp read
  cases same
  split at mapped
  next => cases mapped
  next =>
    refine numberOf_lt fun digit inside => ?_
    obtain ⟨point, -, value⟩ := exists_of_mapM mapped digit inside
    exact table.small point digit value

theorem wordScalar_sound {start : ℕ} {word : Text}
    (read : wordScalar table start word = .ok value) :
    Sound value := by
  rintro number rfl
  unfold wordScalar at read
  split at read
  next => cases read
  split at read
  next => cases read
  split at read
  next negative digits integer =>
    obtain ⟨few, read⟩ := refuse_eq_ok.mp read
    cases read
    have size : (underSign negative (numberOf digits)).natAbs = numberOf digits := by
      unfold underSign
      split <;> omega
    rw [size]
    exact (numberOf_integer integer).trans_le (Nat.pow_le_pow_right (by decide) (not_lt.mp few))
  next =>
    split at read
    next =>
      split at read
      next => cases read
      next => cases read
    next => cases read

def SoundLiteral (literal : LiteralValue) : Prop :=
  ∀ value, literal = .scalar value → Sound value

theorem parseItems_sound {start : ℕ} {expect_value : Bool} {values : List ScalarValue}
    {behind : List QueryToken} {literal : QueryLiteral}
    (parsed : parseItems table field start expect_value values tokens = .ok (literal, behind)) :
    SoundLiteral literal.value := by
  induction tokens generalizing expect_value values with
  | nil => cases parsed
  | cons token rest ih =>
    unfold parseItems at parsed
    split at parsed
    next =>
      obtain ⟨-, parsed⟩ := refuse_eq_ok.mp parsed
      cases parsed
      exact fun _ never => by cases never
    next =>
      split at parsed
      next =>
        obtain ⟨-, parsed⟩ := require_eq_ok.mp parsed
        split at parsed
        next => cases parsed
        next => exact ih parsed
      next =>
        obtain ⟨-, parsed⟩ := require_eq_ok.mp parsed
        exact ih parsed

theorem parseLiteral_sound {behind : List QueryToken} {literal : QueryLiteral}
    (parsed : parseLiteral table field token tokens = .ok (literal, behind)) :
    SoundLiteral literal.value := by
  unfold parseLiteral at parsed
  split at parsed
  next => cases parsed
  split at parsed
  next => exact parseItems_sound parsed
  obtain ⟨-, parsed⟩ := require_eq_ok.mp parsed
  split at parsed
  next => cases parsed
  next value read =>
  cases parsed
  intro other same
  cases same
  unfold tokenScalar at read
  split at read
  next =>
    cases read
    exact fun _ never => by cases never
  next => exact wordScalar_sound read

theorem parseComparisons_cons
    (parsed : parseComparisons table (token :: tokens) = .ok comparisons) :
    ∃ comparison behind rest, comparisons = comparison :: rest ∧ behind.length ≤ tokens.length ∧
      SoundLiteral comparison.literal.value ∧ parseComparisons table behind = .ok rest := by
  rw [parseComparisons.eq_def] at parsed
  dsimp only at parsed
  split at parsed
  next => cases parsed
  split at parsed
  next => cases parsed
  split at parsed
  next => cases parsed
  next operator_token tokens =>
  split at parsed
  next => cases parsed
  next operator _ =>
  split at parsed
  next => cases parsed
  next literal_token tokens =>
  split at parsed
  next => cases parsed
  next literal behind literalParsed =>
  obtain ⟨rest, others, rfl⟩ := map_eq_ok.mp parsed
  refine ⟨_, behind, rest, rfl, ?_, parseLiteral_sound literalParsed, others⟩
  have shorter := length_of_parseLiteral literalParsed
  simp only [List.length_cons]
  omega

theorem parseComparisons_sound (tokens : List QueryToken)
    (parsed : parseComparisons table tokens = .ok comparisons) :
    ∀ comparison ∈ comparisons, SoundLiteral comparison.literal.value := by
  induction length : tokens.length using Nat.strong_induction_on generalizing tokens comparisons with
  | _ count ih =>
    cases tokens with
    | nil =>
      rw [parseComparisons] at parsed
      cases parsed
      exact fun _ never => by cases never
    | cons token rest =>
      obtain ⟨first, behind, others, rfl, shorter, sound, parsed⟩ := parseComparisons_cons parsed
      intro comparison inside
      rcases List.mem_cons.mp inside with rfl | there
      · exact sound
      · rw [List.length_cons] at length
        exact ih behind.length (by omega) behind parsed rfl comparison there

/-! ## Validation -/

variable {descriptors : List FieldDescriptor} {seen : List Text}

theorem byName?_name {name : Text} {descriptor : FieldDescriptor}
    (distinct : (descriptors.flatMap FieldDescriptor.names).Nodup)
    (found : byName? descriptors name = some descriptor) :
    byName? descriptors descriptor.name = some descriptor := by
  induction descriptors with
  | nil => cases found
  | cons first rest ih =>
    rw [List.flatMap_cons, List.nodup_append] at distinct
    obtain ⟨-, others, apart⟩ := distinct
    unfold byName? at found ⊢
    rw [List.find?_cons] at found ⊢
    split at found
    next =>
      cases found
      have own : descriptor.names.contains descriptor.name = true := by
        rw [List.contains_iff_mem]
        exact List.mem_cons_self
      rw [own]
    next =>
      have member := List.mem_of_find?_eq_some found
      have foreign : first.names.contains descriptor.name = false := by
        rw [← Bool.not_eq_true, List.contains_iff_mem]
        intro inside
        exact apart _ inside _ (List.mem_flatMap.mpr ⟨descriptor, member, List.mem_cons_self⟩) rfl
      rw [foreign]
      exact ih others found

theorem validateComparison_eq_ok {comparison : QueryComparison} {validated : ValidatedComparison} :
    validateComparison descriptors seen comparison = .ok validated ↔
      ∃ descriptor, byName? descriptors comparison.field = some descriptor ∧
        comparison.operator ∈ descriptor.operators ∧
        ¬(descriptor.name ∈ seen ∧ descriptor.repeated = false) ∧
        ∃ value, validateLiteralShape descriptor.value_type comparison.operator
            comparison.literal.value = .ok value ∧
          validated = ⟨descriptor.name, comparison.operator, value, comparison.span⟩ := by
  unfold validateComparison
  cases byName? descriptors comparison.field with
  | none =>
    refine iff_of_false (fun never => by cases never) ?_
    rintro ⟨_, never, -⟩
    cases never
  | some descriptor =>
    dsimp only
    by_cases allowed : comparison.operator ∈ descriptor.operators
    · rw [if_neg (not_not.mpr allowed)]
      by_cases duplicate : descriptor.name ∈ seen ∧ descriptor.repeated = false
      · rw [if_pos duplicate]
        refine iff_of_false (fun never => by cases never) ?_
        rintro ⟨_, same, -, single, -⟩
        cases same
        exact single duplicate
      · rw [if_neg duplicate]
        cases shape : validateLiteralShape descriptor.value_type comparison.operator
            comparison.literal.value with
        | error code =>
          refine iff_of_false (fun never => by cases never) ?_
          rintro ⟨_, same, -, -, value, never, -⟩
          cases same
          rw [shape] at never
          cases never
        | ok value =>
          constructor
          · intro done
            cases done
            exact ⟨descriptor, rfl, allowed, duplicate, value, shape, rfl⟩
          · rintro ⟨_, same, -, -, value', shape', rfl⟩
            cases same
            cases shape.symm.trans shape'
            rfl
    · rw [if_pos allowed]
      refine iff_of_false (fun never => by cases never) ?_
      rintro ⟨_, same, there, -⟩
      cases same
      exact allowed there

theorem validateLiteralShape_scalar {validated : LiteralValue} :
    validateLiteralShape value_type operator (.scalar value) = .ok validated ↔
      operator.expectsList = false ∧
        ∃ normal, normalized? value_type value = some normal ∧ validated = .scalar normal := by
  unfold validateLiteralShape
  dsimp only
  by_cases listed : operator.expectsList = true
  · rw [if_pos listed]
    refine iff_of_false (fun never => by cases never) ?_
    rintro ⟨never, -⟩
    rw [listed] at never
    cases never
  · rw [if_neg listed]
    rw [Bool.not_eq_true] at listed
    cases normalized? value_type value with
    | none =>
      refine iff_of_false (fun never => by cases never) ?_
      rintro ⟨-, _, never, -⟩
      cases never
    | some normal =>
      constructor
      · intro done
        cases done
        exact ⟨listed, normal, rfl, rfl⟩
      · rintro ⟨-, _, same, rfl⟩
        cases same
        rfl

theorem validateLiteralShape_list {values : List ScalarValue} {validated : LiteralValue}
    (done : validateLiteralShape value_type operator (.list values) = .ok validated) :
    operator.expectsList = true ∧ ∃ normals, validated = .list normals := by
  unfold validateLiteralShape at done
  dsimp only at done
  obtain ⟨listed, done⟩ := refuse_eq_ok.mp done
  obtain ⟨-, done⟩ := refuse_eq_ok.mp done
  split at done
  next => cases done
  next normals _ =>
  cases done
  exact ⟨by simpa using listed, normals, rfl⟩

/-- A comparison that was compiled: its field is a declared name, and its value the validated one
of a literal that was read. -/
structure Compiled (descriptors : List FieldDescriptor) (seen : List Text)
    (comparison : ValidatedComparison) (descriptor : FieldDescriptor) : Prop where
  named : byName? descriptors comparison.field = some descriptor
  name : descriptor.name = comparison.field
  allowed : comparison.operator ∈ descriptor.operators
  single : ¬(descriptor.name ∈ seen ∧ descriptor.repeated = false)
  shape : comparison.operator.expectsList = true ∧ (∃ values, comparison.value = .list values) ∨
    comparison.operator.expectsList = false ∧ ∃ written value,
      normalized? descriptor.value_type written = some value ∧ Sound written ∧
        comparison.value = .scalar value

def AllCompiled (descriptors : List FieldDescriptor) :
    List Text → List ValidatedComparison → Prop
  | _, [] => True
  | seen, comparison :: rest =>
    (∃ descriptor, Compiled descriptors seen comparison descriptor) ∧
      AllCompiled descriptors (comparison.field :: seen) rest

theorem validateComparisons_cons {comparison : QueryComparison}
    {validated : List ValidatedComparison} :
    validateComparisons descriptors seen (comparison :: comparisons) = .ok validated ↔
      ∃ first rest, validateComparison descriptors seen comparison = .ok first ∧
        validateComparisons descriptors (first.field :: seen) comparisons = .ok rest ∧
        validated = first :: rest := by
  rw [validateComparisons]
  cases validateComparison descriptors seen comparison with
  | error failure =>
    refine iff_of_false (fun never => by cases never) ?_
    rintro ⟨_, _, never, -⟩
    cases never
  | ok first =>
    dsimp only
    rw [map_eq_ok]
    constructor
    · rintro ⟨rest, done, rfl⟩
      exact ⟨first, rest, rfl, done, rfl⟩
    · rintro ⟨_, rest, same, done, rfl⟩
      cases same
      exact ⟨rest, done, rfl⟩

theorem allCompiled_of_validated (distinct : (descriptors.flatMap FieldDescriptor.names).Nodup)
    {validated : List ValidatedComparison}
    (sound : ∀ comparison ∈ comparisons, SoundLiteral comparison.literal.value)
    (done : validateComparisons descriptors seen comparisons = .ok validated) :
    AllCompiled descriptors seen validated := by
  induction comparisons generalizing seen validated with
  | nil =>
    cases done
    trivial
  | cons comparison rest ih =>
    obtain ⟨first, others, here, there, rfl⟩ := validateComparisons_cons.mp done
    obtain ⟨descriptor, found, allowed, single, value, shape, rfl⟩ :=
      validateComparison_eq_ok.mp here
    refine ⟨⟨descriptor, byName?_name distinct found, rfl, allowed, single, ?_⟩,
      ih (fun other inside => sound other (List.mem_cons_of_mem _ inside)) there⟩
    have literal := sound comparison List.mem_cons_self
    cases written : comparison.literal.value with
    | list values =>
      rw [written] at shape
      obtain ⟨listed, normals, rfl⟩ := validateLiteralShape_list shape
      exact .inl ⟨listed, normals, rfl⟩
    | scalar value =>
      rw [written] at shape
      obtain ⟨symbolic, normal, typed, rfl⟩ := validateLiteralShape_scalar.mp shape
      exact .inr ⟨symbolic, value, normal, typed, literal value written, rfl⟩

/-! ## The whole query -/

def tailPoints (texts : List Text) : Text :=
  if texts = [] then [] else ' '.toNat :: List.intercalate [' '.toNat] texts

theorem intercalate_cons (text : Text) (texts : List Text) :
    List.intercalate [' '.toNat] (text :: texts) = text ++ tailPoints texts := by
  unfold tailPoints
  cases texts with
  | nil => simp [List.intercalate]
  | cons other rest => simp [List.intercalate]

theorem tailPoints_bounded (texts : List Text) : Bounded (tailPoints texts) := by
  unfold tailPoints
  split
  · exact .inl rfl
  · exact .inr ⟨_, rfl⟩

theorem parseFrom_tail (table : DigitTable) (index : ℕ) (texts : List Text) : ∃ index',
    parseFrom table index (tailPoints texts) =
      parseFrom table index' (List.intercalate [' '.toNat] texts) := by
  unfold tailPoints
  split
  next none =>
    subst none
    exact ⟨index, rfl⟩
  next => exact ⟨index + 1, parseFrom_space table index _⟩

/-- **Comparisons whose texts tell them are read back.** -/
theorem compile_of_renderable (table : DigitTable) {comparisons : List ValidatedComparison}
    (compiled : AllCompiled descriptors seen comparisons)
    (renderable : ∀ comparison ∈ comparisons, comparison.Renderable) :
    ∃ texts, comparisons.mapM renderComparison = .ok texts ∧ ∀ index, ∃ parsed again,
      parseFrom table index (List.intercalate [' '.toNat] texts) = .ok parsed ∧
      validateComparisons descriptors seen parsed = .ok again ∧
      List.Forall₂ ValidatedComparison.Same again comparisons ∧
      again.mapM renderComparison = .ok texts := by
  induction comparisons generalizing seen with
  | nil =>
    exact ⟨[], rfl, fun index => ⟨[], [], parseFrom_nil table index, rfl, .nil, rfl⟩⟩
  | cons comparison rest ih =>
    obtain ⟨⟨descriptor, here⟩, there⟩ := compiled
    obtain ⟨texts, renders, reads⟩ := ih there fun other inside =>
      renderable other (List.mem_cons_of_mem _ inside)
    obtain ⟨symbolic, isIn, notIn, plain⟩ := renderable comparison List.mem_cons_self
    rcases here.shape with ⟨listed, -⟩ | ⟨-, written, value, typed, sound, scalar⟩
    · rw [listed] at symbolic
      cases symbolic
    have told : Told value := fun number same => plain number (by rw [scalar, same])
    obtain ⟨text, rendered, -⟩ := reread_of_told table 0 typed sound told
    have renders' : renderComparison comparison =
        .ok (comparison.field ++ comparison.operator.value ++ text) := by
      unfold renderComparison
      rw [scalar]
      exact map_eq_ok.mpr ⟨text, rendered, rfl⟩
    refine ⟨_ :: texts, mapM_eq_ok.mpr (.cons renders' (mapM_eq_ok.mp renders)), fun index => ?_⟩
    have field : isField comparison.field = true := by
      rw [← here.name]
      exact descriptor.fields _ List.mem_cons_self
    obtain ⟨index', tail⟩ := parseFrom_tail table
      (index + comparison.field.length + comparison.operator.value.length + text.length) texts
    obtain ⟨parsed, again, others, validates, same, renderAgain⟩ := reads index'
    obtain ⟨text', rendered', read, value', done, typed', same', renderValue⟩ :=
      reread_of_told table (index + comparison.field.length + comparison.operator.value.length)
        typed sound told
    cases rendered.symm.trans rendered'
    have parses := (parseFrom_comparison table field isIn notIn symbolic rendered
      (tailPoints_bounded texts) index).mpr ⟨read, parsed, done, tail.trans others, rfl⟩
    rw [← List.append_assoc, ← List.append_assoc, ← intercalate_cons] at parses
    have first : ∀ span span', validateComparison descriptors seen
        ⟨comparison.field, comparison.operator, ⟨.scalar read, span⟩, span'⟩ =
          .ok ⟨comparison.field, comparison.operator, .scalar value', span'⟩ := by
      intro span span'
      rw [← here.name]
      exact validateComparison_eq_ok.mpr ⟨descriptor, here.name ▸ here.named, here.allowed,
        here.single, .scalar value', validateLiteralShape_scalar.mpr ⟨symbolic, value', typed', rfl⟩,
        rfl⟩
    refine ⟨_, _, parses, validateComparisons_cons.mpr ⟨_, again, first _ _, validates, rfl⟩, ?_, ?_⟩
    · refine .cons ⟨rfl, rfl, ?_⟩ same
      rw [scalar]
      exact same'
    · refine mapM_eq_ok.mpr (.cons ?_ (mapM_eq_ok.mp renderAgain))
      exact map_eq_ok.mpr ⟨text, renderValue, rfl⟩

/-- **Comparisons that are read back are those whose texts tell them.** -/
theorem renderable_of_compile (table : DigitTable) {comparisons again : List ValidatedComparison}
    {texts : List Text} {index : ℕ} {parsed : List QueryComparison}
    (compiled : AllCompiled descriptors seen comparisons)
    (renders : comparisons.mapM renderComparison = .ok texts)
    (parses : parseFrom table index (List.intercalate [' '.toNat] texts) = .ok parsed)
    (validates : validateComparisons descriptors seen parsed = .ok again)
    (same : List.Forall₂ ValidatedComparison.Same again comparisons) :
    ∀ comparison ∈ comparisons, comparison.Renderable := by
  induction comparisons generalizing seen again texts index parsed with
  | nil => exact fun _ never => by cases never
  | cons comparison rest ih =>
    obtain ⟨⟨descriptor, here⟩, there⟩ := compiled
    have paired := mapM_eq_ok.mp renders
    cases paired with
    | @cons _ text _ texts rendered others =>
    have field : isField comparison.field = true := by
      rw [← here.name]
      exact descriptor.fields _ List.mem_cons_self
    obtain ⟨literal, literalRendered, rfl⟩ := map_eq_ok.mp rendered
    rw [intercalate_cons, List.append_assoc, List.append_assoc] at parses
    rcases here.shape with ⟨listed, values, list⟩ | ⟨symbolic, written, value, typed, sound, scalar⟩
    · rw [list] at literalRendered
      obtain ⟨items, -, rfl⟩ := map_eq_ok.mp literalRendered
      exact absurd parses (parseFrom_listed table field listed index _ parsed)
    rw [scalar] at literalRendered
    have keyword : ¬(comparison.field = points "in" ∨ comparison.field = points "notin") :=
      fun keyword => parseFrom_keyword table field keyword symbolic index _ parsed parses
    obtain ⟨isIn, notIn⟩ := not_or.mp keyword
    obtain ⟨read, behind, done, parsesBehind, rfl⟩ := (parseFrom_comparison table field isIn notIn
      symbolic literalRendered (tailPoints_bounded texts) index).mp parses
    obtain ⟨first, rest', validatesFirst, validatesRest, rfl⟩ := validateComparisons_cons.mp validates
    obtain ⟨descriptor', found, -, -, value', shape, rfl⟩ :=
      validateComparison_eq_ok.mp validatesFirst
    cases here.named.symm.trans found
    obtain ⟨-, normal, typed', rfl⟩ := validateLiteralShape_scalar.mp shape
    cases same with
    | cons sameFirst sameRest =>
    obtain ⟨-, -, sameValue⟩ := sameFirst
    rw [scalar] at sameValue
    have told := told_of_reread table _ (normalized?_self typed) literalRendered done typed' sameValue
    obtain ⟨index', tail⟩ := parseFrom_tail table (index + comparison.field.length +
      comparison.operator.value.length + literal.length) texts
    rw [here.name] at validatesRest
    have behind' := ih there (mapM_eq_ok.mpr others) (tail ▸ parsesBehind) validatesRest sameRest
    intro other inside
    rcases List.mem_cons.mp inside with rfl | later
    · refine ⟨symbolic, isIn, notIn, fun number decimal => told number ?_⟩
      rw [scalar] at decimal
      exact LiteralValue.scalar.inj decimal
    · exact behind' other later

theorem parseQuery_eq_ok {source : Text} {expression : QueryExpression} :
    parseQuery table source = .ok expression ↔ expression.source = source ∧
      expression.comparisons ≠ [] ∧ parseFrom table 0 source = .ok expression.comparisons := by
  unfold parseQuery parseFrom lexQuery
  cases lexFrom 0 source with
  | error failure =>
    refine iff_of_false (fun never => by cases never) ?_
    rintro ⟨-, -, never⟩
    cases never
  | ok tokens =>
    cases tokens with
    | nil =>
      refine iff_of_false (fun never => by cases never) ?_
      rintro ⟨-, filled, none⟩
      change parseComparisons table [] = _ at none
      rw [parseComparisons] at none
      exact filled (Except.ok.inj none).symm
    | cons token rest =>
      dsimp only
      rw [map_eq_ok]
      constructor
      · rintro ⟨comparisons, parsed, rfl⟩
        obtain ⟨first, behind, others, rfl, -⟩ := parseComparisons_cons parsed
        exact ⟨rfl, List.cons_ne_nil _ _, parsed⟩
      · rintro ⟨rfl, -, parsed⟩
        exact ⟨expression.comparisons, parsed, rfl⟩

theorem compileQuery_eq_ok {source : Text} {query : ValidatedQuery} :
    compileQuery table source descriptors = .ok query ↔ Declared descriptors ∧
      ∃ comparisons, comparisons ≠ [] ∧ parseFrom table 0 source = .ok comparisons ∧
        validateComparisons descriptors [] comparisons = .ok query.comparisons ∧
        query.comparisons.find?
          (lacks descriptors (query.comparisons.map ValidatedComparison.field)) = none := by
  unfold compileQuery
  cases parsed : parseQuery table source with
  | error failure =>
    refine iff_of_false (fun never => by cases never) ?_
    rintro ⟨-, comparisons, filled, parses, -⟩
    have done := parseQuery_eq_ok.mpr (show (⟨source, comparisons⟩ : QueryExpression).source = source ∧
      _ from ⟨rfl, filled, parses⟩)
    rw [parsed] at done
    cases done
  | ok expression =>
    obtain ⟨-, filled, parses⟩ := parseQuery_eq_ok.mp parsed
    dsimp only
    unfold validateQuery
    by_cases declared : Declared descriptors
    · rw [if_pos declared]
      cases validates : validateComparisons descriptors [] expression.comparisons with
      | error failure =>
        refine iff_of_false (fun never => by cases never) ?_
        rintro ⟨-, comparisons, -, parses', validates', -⟩
        cases parses.symm.trans parses'
        rw [validates] at validates'
        cases validates'
      | ok validated =>
        dsimp only
        cases lacking : validated.find?
            (lacks descriptors (validated.map ValidatedComparison.field)) with
        | some comparison =>
          refine iff_of_false (fun never => by cases never) ?_
          rintro ⟨-, comparisons, -, parses', validates', none'⟩
          cases parses.symm.trans parses'
          cases validates.symm.trans validates'
          rw [lacking] at none'
          cases none'
        | none =>
          constructor
          · intro done
            cases done
            exact ⟨declared, _, filled, parses, validates, lacking⟩
          · rintro ⟨-, comparisons, -, parses', validates', -⟩
            cases parses.symm.trans parses'
            cases validates.symm.trans validates'
            rfl
    · rw [if_neg declared]
      exact iff_of_false (fun never => by cases never) fun both => declared both.1

theorem fields_of_same {first second : List ValidatedComparison}
    (same : List.Forall₂ ValidatedComparison.Same first second) :
    first.map ValidatedComparison.field = second.map ValidatedComparison.field := by
  induction same with
  | nil => rfl
  | cons here _ ih =>
    rw [List.map_cons, List.map_cons, here.1, ih]

theorem lacks_none_iff {comparisons : List ValidatedComparison} :
    comparisons.find? (lacks descriptors (comparisons.map ValidatedComparison.field)) = none ↔
      ∀ field ∈ comparisons.map ValidatedComparison.field,
        (byName? descriptors field).any (fun descriptor => descriptor.requires.any fun target =>
          !(comparisons.map ValidatedComparison.field).contains target) = false := by
  rw [List.find?_eq_none, List.forall_mem_map]
  simp only [Bool.not_eq_true, lacks]

/-- **The canonical text of a compiled query tells the query** exactly when no comparison is of an
operator of lists or of a field whose name is such an operator, and each decimal is plain. -/
theorem rendering_faithful_iff (table : DigitTable) (descriptors : List FieldDescriptor)
    (source : Text) (query : ValidatedQuery)
    (accepted : compileQuery table source descriptors = .ok query) :
    Faithful table descriptors query ↔
      ∀ comparison ∈ query.comparisons, comparison.Renderable := by
  obtain ⟨declared, written, filled, parsed, validated, complete⟩ := compileQuery_eq_ok.mp accepted
  have sound : ∀ comparison ∈ written, SoundLiteral comparison.literal.value := by
    obtain ⟨tokens, -, comparisons⟩ := bind_eq_ok.mp parsed
    exact parseComparisons_sound tokens comparisons
  have compiled := allCompiled_of_validated declared.1 sound validated
  constructor
  · rintro ⟨text, rendered, again, accepted', same, -⟩
    obtain ⟨texts, renders, rfl⟩ := map_eq_ok.mp rendered
    obtain ⟨-, comparisons, -, parses, validates, -⟩ := compileQuery_eq_ok.mp accepted'
    exact renderable_of_compile table compiled renders parses validates same
  · intro renderable
    obtain ⟨texts, renders, reads⟩ := compile_of_renderable table compiled renderable
    obtain ⟨comparisons, again, parses, validates, same, renders'⟩ := reads 0
    refine ⟨_, map_eq_ok.mpr ⟨texts, renders, rfl⟩, ⟨again⟩, compileQuery_eq_ok.mpr
      ⟨declared, comparisons, ?_, parses, validates, ?_⟩, same, map_eq_ok.mpr ⟨texts, renders', rfl⟩⟩
    · rintro rfl
      cases validates
      have none' : query.comparisons = [] := List.forall₂_nil_left_iff.mp same
      cases written with
      | nil => exact filled rfl
      | cons first rest =>
        obtain ⟨_, _, -, -, never⟩ := validateComparisons_cons.mp validated
        rw [none'] at never
        cases never
    · rw [lacks_none_iff] at complete ⊢
      rw [fields_of_same same]
      exact complete

def modelField : FieldDescriptor where
  name := points "gpu_model"
  value_type := .string
  operators := [.equal, .isIn]
  fields := by decide
  distinct := by decide
  allows := by decide
  apart := by decide

def modelQuery : ValidatedQuery :=
  ⟨[⟨points "gpu_model", .equal, .scalar (.str (points "RTX 6000 Ada")), ⟨0, 24⟩⟩]⟩

def modelsQuery : ValidatedQuery :=
  ⟨[⟨points "gpu_model", .isIn, .list [.str (points "H200"), .str (points "A100")], ⟨0, 24⟩⟩]⟩

theorem rendering_faithful_iff_model : Faithful .plain [modelField] modelQuery := by
  refine (rendering_faithful_iff .plain [modelField] (points "gpu_model=\"RTX 6000 Ada\"") modelQuery
    (by decide +kernel)).mpr fun comparison inside => ?_
  cases List.mem_singleton.mp inside
  exact ⟨by decide, by decide, by decide, fun _ never => by cases never⟩

/-- A query over a list is compiled, and its text is not. -/
theorem models_unfaithful :
    compileQuery .plain (points "gpu_model in [H200,A100]") [modelField] = .ok modelsQuery ∧
      renderCanonicalQuery modelsQuery = .ok (points "gpu_modelin[H200,A100]") ∧
      ¬Faithful .plain [modelField] modelsQuery := by
  have rendered : renderCanonicalQuery modelsQuery = .ok (points "gpu_modelin[H200,A100]") := by
    decide +kernel
  refine ⟨by decide +kernel, rendered, ?_⟩
  rintro ⟨text, renders, again, accepted, -⟩
  cases rendered.symm.trans renders
  have refused : compileQuery .plain (points "gpu_modelin[H200,A100]") [modelField] =
      .error (.syntaxError .expectedOperator 11 (some (points "gpu_modelin"))) := by
    decide +kernel
  rw [refused] at accepted
  cases accepted

end ComputeMarket.Query
