import ComputeMarket.Query.Compile

/-!
# Reading what was rendered

The texts of a rendered comparison, lexed and read one by one: a word, an operator, a quoted
string (`lexFrom_word` and its companions), and the number of a word that was rendered of one
(`wordScalar_intPoints`, `wordScalar_fixedPoints`).
-/

namespace ComputeMarket.Query

open Texts DecimalArithmetic

variable {point : ℕ} {word : Text}

theorem inAtom_of_isLetter (letter : isLetter point = true) : inAtom point = true := by
  have bounds : 97 ≤ point ∧ point ≤ 122 ∨ 65 ≤ point ∧ point ≤ 90 := by
    simpa [isLetter] using letter
  have space : isSpace point = false := by
    simp only [isSpace, Bool.or_eq_false_iff, Bool.and_eq_false_iff, decide_eq_false_iff_not]
    omega
  have stop : (points "[]=!<>,()").contains point = false := by
    rw [← Bool.not_eq_true, List.contains_iff_mem]
    simp [points]
    omega
  rw [inAtom, space, stop]
  rfl

theorem inAtom_of_isDigit (digit : isDigit point = true) : inAtom point = true := by
  have bounds : 48 ≤ point ∧ point ≤ 57 := by simpa [isDigit] using digit
  have space : isSpace point = false := by
    simp only [isSpace, Bool.or_eq_false_iff, Bool.and_eq_false_iff, decide_eq_false_iff_not]
    omega
  have stop : (points "[]=!<>,()").contains point = false := by
    rw [← Bool.not_eq_true, List.contains_iff_mem]
    simp [points]
    omega
  rw [inAtom, space, stop]
  rfl

theorem matchesWord_cases {more : Text} (safe : ∀ point ∈ more, inAtom point = true)
    (isWord : matchesWord more word = true) : ∃ first rest, word = first :: rest ∧
      (isLetter first = true ∨ first = '_'.toNat) ∧ ∀ point ∈ word, inAtom point = true := by
  cases word with
  | nil => cases isWord
  | cons first rest =>
    rw [matchesWord, Bool.and_eq_true, Bool.or_eq_true, beq_iff_eq, List.all_eq_true] at isWord
    obtain ⟨begins, tail⟩ := isWord
    refine ⟨first, rest, rfl, begins, fun point inside => ?_⟩
    rcases List.mem_cons.mp inside with rfl | behind
    · rcases begins with letter | rfl
      · exact inAtom_of_isLetter letter
      · decide
    · have one := tail point behind
      rw [Bool.or_eq_true, Bool.or_eq_true, List.contains_iff_mem] at one
      rcases one with (letter | digit) | other
      · exact inAtom_of_isLetter letter
      · exact inAtom_of_isDigit digit
      · exact safe point other

theorem isField_cases (field : isField word = true) : ∃ first rest,
    word = first :: rest ∧ (isLetter first = true ∨ first = '_'.toNat) ∧
      ∀ point ∈ word, inAtom point = true :=
  matchesWord_cases (by decide) field

theorem isSafeString_cases (safe : isSafeString word = true) : ∃ first rest,
    word = first :: rest ∧ (isLetter first = true ∨ first = '_'.toNat) ∧
      ∀ point ∈ word, inAtom point = true :=
  matchesWord_cases (by decide) safe

/-! ## Lexing -/

/-- What is behind a token of a rendered query: nothing, or the space before the next. -/
def Bounded (behind : Text) : Prop := behind = [] ∨ ∃ rest, behind = ' '.toNat :: rest

theorem Bounded.ends {behind : Text} (bounded : Bounded behind) :
    ∀ point ∈ behind.head?, inAtom point = false := by
  rcases bounded with rfl | ⟨rest, rfl⟩
  · exact fun point none => by cases none
  · intro point here
    cases here
    decide

theorem inAtom_facts (inside : inAtom point = true) : isSpace point = false ∧
    punctuation? point = none ∧ ∀ rest, symbolicOperator? (point :: rest) = none := by
  rw [inAtom, Bool.and_eq_true, Bool.not_eq_true', Bool.not_eq_true'] at inside
  obtain ⟨space, stop⟩ := inside
  rw [← Bool.not_eq_true, List.contains_iff_mem] at stop
  have apart : point ≠ 91 ∧ point ≠ 93 ∧ point ≠ 61 ∧ point ≠ 33 ∧ point ≠ 60 ∧ point ≠ 62 ∧
      point ≠ 44 ∧ point ≠ 40 ∧ point ≠ 41 := by
    simpa [points] using stop
  obtain ⟨left, right, equal, bang, less, more, comma, opening, closing⟩ := apart
  refine ⟨space, ?_, fun rest => ?_⟩
  · simp [punctuation?, left, right, comma, opening, closing]
  · rw [symbolicOperator?, List.find?_eq_none]
    intro candidate member
    have heads : candidate.head? = some 33 ∨ candidate.head? = some 60 ∨ candidate.head? = some 62 ∨
        candidate.head? = some 61 := by
      revert candidate
      decide
    cases candidate with
    | nil => simp at heads
    | cons head tail =>
      simp only [List.head?_cons, Option.some.injEq] at heads
      rw [List.isPrefixOf_cons_cons, Bool.and_eq_true, beq_iff_eq]
      rintro ⟨rfl, -⟩
      omega

theorem lexFrom_nil (index : ℕ) : lexFrom index [] = .ok [] := by
  rw [lexFrom]

theorem lexFrom_space (index : ℕ) (behind : Text) :
    lexFrom index (' '.toNat :: behind) = lexFrom (index + 1) behind := by
  rw [lexFrom, if_pos (by decide)]

theorem lexFrom_word (index : ℕ) (behind : Text) (filled : word ≠ [])
    (quote : word.head? ≠ some '"'.toNat) (all : ∀ point ∈ word, inAtom point = true)
    (ends : ∀ point ∈ behind.head?, inAtom point = false) :
    lexFrom index (word ++ behind) =
      (wordToken index word :: ·) <$> lexFrom (index + word.length) behind := by
  cases word with
  | nil => exact absurd rfl filled
  | cons point rest =>
    obtain ⟨space, punctuation, operator⟩ := inAtom_facts (all point List.mem_cons_self)
    have first := all point List.mem_cons_self
    have taken := takeWhile_of_all all ends
    have dropped := dropWhile_of_all (fun other inside => all other (List.mem_cons_of_mem _ inside))
      ends
    rw [List.cons_append] at taken ⊢
    conv_lhs => rw [lexFrom]
    rw [space, if_neg Bool.false_ne_true, punctuation]
    dsimp only
    rw [if_neg (fun same => quote (congrArg some same))]
    split
    next found =>
      rw [operator] at found
      cases found
    next =>
      rw [if_pos first, taken, dropped]

theorem lexFrom_bracket (index : ℕ) (behind : Text) :
    lexFrom index ('['.toNat :: behind) =
      (⟨.leftBracket, ['['.toNat], ⟨index, index + 1⟩, none⟩ :: ·) <$> lexFrom (index + 1) behind := by
  conv_lhs => rw [lexFrom]
  rfl

/-- A symbolic operator is one token, where no sign of equality follows. -/
theorem lexFrom_operator {operator : ComparisonOperator} (index : ℕ) (behind : Text)
    (symbolic : operator.expectsList = false) (ends : behind.head? ≠ some '='.toNat) :
    lexFrom index (operator.value ++ behind) =
      (⟨.operator, operator.value, ⟨index, index + operator.value.length⟩, none⟩ :: ·) <$>
        lexFrom (index + operator.value.length) behind := by
  have found : symbolicOperator? (operator.value ++ behind) = some operator.value := by
    cases operator with
    | isIn => cases symbolic
    | notIn => cases symbolic
    | equal => rfl
    | notEqual => rfl
    | lessThanOrEqual => rfl
    | greaterThanOrEqual => rfl
    | lessThan =>
      cases behind with
      | nil => rfl
      | cons point rest =>
        have other : point ≠ 61 := fun same => ends (congrArg some same)
        simp [symbolicOperator?, SYMBOLIC_OPERATORS, ComparisonOperator.value, points, other.symm]
    | greaterThan =>
      cases behind with
      | nil => rfl
      | cons point rest =>
        have other : point ≠ 61 := fun same => ends (congrArg some same)
        simp [symbolicOperator?, SYMBOLIC_OPERATORS, ComparisonOperator.value, points, other.symm]
  obtain ⟨point, rest, written, space, punctuation, quote⟩ : ∃ point rest,
      operator.value = point :: rest ∧ isSpace point = false ∧ punctuation? point = none ∧
        point ≠ '"'.toNat := by
    cases operator with
    | isIn => cases symbolic
    | notIn => cases symbolic
    | equal => exact ⟨_, _, rfl, by decide, by decide, by decide⟩
    | notEqual => exact ⟨_, _, rfl, by decide, by decide, by decide⟩
    | lessThan => exact ⟨_, _, rfl, by decide, by decide, by decide⟩
    | lessThanOrEqual => exact ⟨_, _, rfl, by decide, by decide, by decide⟩
    | greaterThan => exact ⟨_, _, rfl, by decide, by decide, by decide⟩
    | greaterThanOrEqual => exact ⟨_, _, rfl, by decide, by decide, by decide⟩
  rw [written] at found ⊢
  rw [List.cons_append] at found ⊢
  conv_lhs => rw [lexFrom]
  rw [space, if_neg Bool.false_ne_true, punctuation]
  dsimp only
  rw [if_neg quote]
  split
  next other taken =>
    rw [found] at taken
    cases taken
    rw [← List.cons_append, List.drop_left]
  next none =>
  rw [found] at none
  cases none

theorem lexFrom_string (index : ℕ) (text behind : Text) :
    lexFrom index ('"'.toNat :: encodeString text ++ ['"'.toNat] ++ behind) =
      (⟨.string, '"'.toNat :: encodeString text ++ ['"'.toNat],
          ⟨index, index + (encodeString text).length + 2⟩, some text⟩ :: ·) <$>
        lexFrom (index + (encodeString text).length + 2) behind := by
  have scanned := scanString_encodeString text behind
  have shape : '"'.toNat :: encodeString text ++ ['"'.toNat] ++ behind =
      '"'.toNat :: (encodeString text ++ '"'.toNat :: behind) := by simp
  rw [shape]
  conv_lhs => rw [lexFrom]
  rw [if_neg (by decide)]
  change (if '"'.toNat = '"'.toNat then _ else _) = _
  rw [if_pos rfl]
  split
  next none =>
    rw [scanned] at none
    cases none
  next inside rest taken =>
  rw [scanned] at taken
  cases taken
  rw [stringToken, decodeString_encodeString]
  rfl

/-! ## Numbers -/

section

variable {table : DigitTable} {digits fraction behind : List ℕ} {start : ℕ} {negative : Bool}
    {body : Text}

theorem value_of_lt {digit : ℕ} (small : digit < 10) : table.value ('0'.toNat + digit) = some digit := by
  have ascii := table.ascii (48 + digit) (by omega)
  have range : 48 ≤ 48 + digit ∧ 48 + digit ≤ 57 := by omega
  rw [show '0'.toNat = 48 from rfl, ascii]
  change (if 48 ≤ 48 + digit ∧ 48 + digit ≤ 57 then some (48 + digit - 48) else none) = some digit
  rw [if_pos range, Nat.add_sub_cancel_left]

theorem value_of_ascii (ascii : point < 128) (other : isDigit point = false) :
    table.value point = none := by
  rw [table.ascii point ascii]
  refine if_neg fun range => ?_
  rw [isDigit, Bool.and_eq_false_iff, decide_eq_false_iff_not, decide_eq_false_iff_not] at other
  rcases other with below | above
  · exact below range.1
  · exact above range.2

theorem mapM_digitPoints (small : ∀ digit ∈ digits, digit < 10) :
    (digitPoints digits).mapM table.value = some digits := by
  induction digits with
  | nil => rfl
  | cons digit rest ih =>
    rw [digitPoints, List.map_cons, List.mapM_cons, value_of_lt (small digit List.mem_cons_self)]
    change (do let others ← (digitPoints rest).mapM table.value; some (digit :: others)) = _
    rw [ih fun other inside => small other (List.mem_cons_of_mem _ inside)]
    rfl

theorem digitPoints_head (small : ∀ digit ∈ digits, digit < 10) :
    ∀ point ∈ (digitPoints digits).head?, 48 ≤ point ∧ point ≤ 57 := by
  intro point here
  cases digits with
  | nil => cases here
  | cons digit rest =>
    cases here
    have one := small digit List.mem_cons_self
    exact ⟨Nat.le_add_right 48 digit, show 48 + digit ≤ 57 by omega⟩

theorem signed_signPoints (minus : body.head? ≠ some '-'.toNat)
    (plus : body.head? ≠ some '+'.toNat) :
    signed (signPoints negative ++ body) = (negative, body) := by
  cases negative with
  | true => rfl
  | false =>
    cases body with
    | nil => rfl
    | cons point rest =>
      change signed (point :: rest) = _
      rw [signed, if_neg fun same => minus (congrArg some same),
        if_neg fun same => plus (congrArg some same)]

theorem not_keyword (first : ∀ point ∈ word.head?, 45 ≤ point ∧ point ≤ 57) :
    word ≠ points "true" ∧ word ≠ points "false" := by
  constructor
  · rintro rfl
    exact absurd (first 116 rfl) (by decide)
  · rintro rfl
    exact absurd (first 102 rfl) (by decide)

theorem signPoints_head (digit : ∀ point ∈ body.head?, 48 ≤ point ∧ point ≤ 57) :
    ∀ point ∈ (signPoints negative ++ body).head?, 45 ≤ point ∧ point ≤ 57 := by
  intro point here
  cases negative with
  | true =>
    cases here
    decide
  | false => exact ⟨(show 45 ≤ 48 by decide).trans (digit point here).1, (digit point here).2⟩

theorem not_sign_of_head (digit : ∀ point ∈ body.head?, 48 ≤ point ∧ point ≤ 57) :
    body.head? ≠ some '-'.toNat ∧ body.head? ≠ some '+'.toNat := by
  constructor
  · intro same
    exact absurd (digit _ same) (by decide)
  · intro same
    exact absurd (digit _ same) (by decide)

theorem integer?_digitPoints (small : ∀ digit ∈ digits, digit < 10) (filled : digits ≠ []) :
    table.integer? (signPoints negative ++ digitPoints digits) = some (negative, digits) := by
  obtain ⟨minus, plus⟩ := not_sign_of_head (digitPoints_head small)
  unfold DigitTable.integer? DigitTable.digits?
  rw [signed_signPoints minus plus]
  dsimp only
  have some' : digitPoints digits ≠ [] := fun none => filled (List.map_eq_nil_iff.mp none)
  rw [if_neg some', mapM_digitPoints small]
  rfl

/-- **The text of an integer is read as the integer**, where it is not too long. -/
theorem wordScalar_digitPoints (small : ∀ digit ∈ digits, digit < 10) (filled : digits ≠ []) :
    wordScalar table start (signPoints negative ++ digitPoints digits) =
      if MAX_STR_DIGITS < digits.length then .error .valueError
      else .ok (.int (underSign negative (numberOf digits))) := by
  obtain ⟨true', false'⟩ := not_keyword (signPoints_head (digitPoints_head small))
  unfold wordScalar
  rw [if_neg true', if_neg false', integer?_digitPoints small filled]

theorem mapM_point (fraction : Text) :
    (digitPoints digits ++ '.'.toNat :: fraction).mapM table.value = none := by
  rw [List.mapM_append, List.mapM_cons, value_of_ascii (by decide) (by decide)]
  cases (digitPoints digits).mapM table.value <;> rfl

theorem run_digitPoints (small : ∀ digit ∈ digits, digit < 10)
    (ends : ∀ point ∈ behind.head?, point < 128 ∧ isDigit point = false) :
    table.run (digitPoints digits ++ behind) = (digits, behind) := by
  have all : ∀ point ∈ digitPoints digits, (table.value point).isSome = true := by
    intro point inside
    obtain ⟨digit, member, rfl⟩ := List.mem_map.mp inside
    rw [value_of_lt (small digit member)]
    rfl
  have stops : ∀ point ∈ behind.head?, (table.value point).isSome = false := by
    intro point here
    obtain ⟨ascii, other⟩ := ends point here
    rw [value_of_ascii ascii other]
    rfl
  unfold DigitTable.run
  rw [takeWhile_of_all all stops, dropWhile_of_all all stops]
  refine Prod.ext ?_ rfl
  change (digitPoints digits).filterMap table.value = digits
  clear all stops ends
  induction digits with
  | nil => rfl
  | cons digit rest ih =>
    rw [digitPoints, List.map_cons,
      List.filterMap_cons_some (value_of_lt (small digit List.mem_cons_self))]
    exact congrArg _ (ih fun other inside => small other (List.mem_cons_of_mem _ inside))

theorem decimalParts?_digitPoints (small : ∀ digit ∈ digits, digit < 10)
    (small' : ∀ digit ∈ fraction, digit < 10) (filled : digits ≠ []) :
    table.decimalParts? (signPoints negative ++
        (digitPoints digits ++ '.'.toNat :: digitPoints fraction)) =
      some ⟨negative, digits, fraction, 0⟩ := by
  have head : ∀ point ∈ (digitPoints digits ++ '.'.toNat :: digitPoints fraction).head?,
      48 ≤ point ∧ point ≤ 57 := by
    cases digits with
    | nil => exact absurd rfl filled
    | cons digit rest => exact digitPoints_head small
  obtain ⟨minus, plus⟩ := not_sign_of_head head
  have whole := @run_digitPoints table _ _ small
    (show ∀ point ∈ ('.'.toNat :: digitPoints fraction).head?, point < 128 ∧ isDigit point = false by
      intro point here
      cases here
      decide)
  have rest := @run_digitPoints table fraction [] small' (fun point none => by cases none)
  rw [List.append_nil] at rest
  unfold DigitTable.decimalParts?
  rw [signed_signPoints minus plus]
  dsimp only
  rw [whole]
  simp only [List.head?_cons, decide_true, if_true, List.tail_cons, rest, filled, false_and, if_false,
    Option.map_some]

/-- **The text of a decimal is read as the decimal**, where it is held exactly. -/
theorem wordScalar_point (small : ∀ digit ∈ digits, digit < 10)
    (small' : ∀ digit ∈ fraction, digit < 10) (filled : digits ≠ []) :
    wordScalar table start (signPoints negative ++
        (digitPoints digits ++ '.'.toNat :: digitPoints fraction)) =
      if Exact ⟨underSign negative (numberOf (digits ++ fraction)), -fraction.length⟩ then
        .ok (.decimal ⟨underSign negative (numberOf (digits ++ fraction)), -fraction.length⟩)
      else .error (.syntaxError .invalidDecimal start none) := by
  have head : ∀ point ∈ (digitPoints digits ++ '.'.toNat :: digitPoints fraction).head?,
      48 ≤ point ∧ point ≤ 57 := by
    cases digits with
    | nil => exact absurd rfl filled
    | cons digit rest => exact digitPoints_head small
  obtain ⟨minus, plus⟩ := not_sign_of_head head
  have integer : table.integer? (signPoints negative ++
      (digitPoints digits ++ '.'.toNat :: digitPoints fraction)) = none := by
    unfold DigitTable.integer? DigitTable.digits?
    rw [signed_signPoints minus plus]
    dsimp only
    rw [if_neg (List.append_ne_nil_of_right_ne_nil _ (List.cons_ne_nil _ _)), mapM_point]
    rfl
  obtain ⟨true', false'⟩ := not_keyword (signPoints_head head)
  unfold wordScalar
  rw [if_neg true', if_neg false', integer, decimalParts?_digitPoints small small' filled]
  simp only [DecimalParts.decimal, zero_sub]

end

theorem wordScalar_intPoints (table : DigitTable) (start : ℕ) (number : ℤ) :
    wordScalar table start (intPoints number) =
      if MAX_STR_DIGITS < (digitsOf number.natAbs).length then .error .valueError
      else .ok (.int number) := by
  have same : underSign (decide (number < 0)) number.natAbs = number := by
    unfold underSign
    by_cases negative : number < 0
    · rw [if_pos (decide_eq_true negative)]
      omega
    · rw [if_neg (by simpa using negative)]
      omega
  rw [intPoints, wordScalar_digitPoints (fun _ => lt_of_mem_digitsOf) (digitsOf_ne_nil _),
    numberOf_digitsOf, same]

/-- `format(decimal, "f")` is read as the decimal. -/
theorem wordScalar_fixedPoints (table : DigitTable) (start : ℕ) (negative : Bool) (coefficient : ℕ)
    (exponent : ℤ) :
    wordScalar table start (signPoints negative ++ fixedPoints coefficient exponent) =
      if 0 ≤ exponent then
        if MAX_STR_DIGITS < (digitsOf coefficient).length + exponent.toNat then .error .valueError
        else .ok (.int (underSign negative (coefficient * 10 ^ exponent.toNat)))
      else if Exact ⟨underSign negative coefficient, exponent⟩ then
        .ok (.decimal ⟨underSign negative coefficient, exponent⟩)
      else .error (.syntaxError .invalidDecimal start none) := by
  unfold fixedPoints
  split
  next whole =>
    have small : ∀ digit ∈ digitsOf coefficient ++ List.replicate exponent.toNat 0, digit < 10 := by
      intro digit inside
      rcases List.mem_append.mp inside with there | zero
      · exact lt_of_mem_digitsOf there
      · rw [List.eq_of_mem_replicate zero]
        decide
    rw [wordScalar_digitPoints small (List.append_ne_nil_of_left_ne_nil (digitsOf_ne_nil _) _),
      List.length_append, List.length_replicate, numberOf_append, numberOf_digitsOf,
      numberOf_replicate_zero, List.length_replicate, Nat.add_zero]
  next part =>
    dsimp only
    generalize places : (-exponent).toNat = count
    generalize padding : List.replicate (count + 1 - (digitsOf coefficient).length) 0 ++
      digitsOf coefficient = padded
    have long : count + 1 ≤ padded.length := by
      rw [← padding, List.length_append, List.length_replicate]
      omega
    have small : ∀ digit ∈ padded, digit < 10 := by
      rw [← padding]
      intro digit inside
      rcases List.mem_append.mp inside with zero | there
      · rw [List.eq_of_mem_replicate zero]
        decide
      · exact lt_of_mem_digitsOf there
    have number : numberOf padded = coefficient := by
      rw [← padding, numberOf_append, numberOf_replicate_zero, numberOf_digitsOf, Nat.zero_mul,
        Nat.zero_add]
    have filled : padded.take (padded.length - count) ≠ [] := by
      rw [← List.length_pos_iff, List.length_take]
      omega
    have behind : ((padded.drop (padded.length - count)).length : ℤ) = -exponent := by
      rw [List.length_drop]
      omega
    rw [wordScalar_point (fun digit inside => small digit (List.mem_of_mem_take inside))
      (fun digit inside => small digit (List.mem_of_mem_drop inside)) filled, List.take_append_drop,
      number, behind, neg_neg]

end ComputeMarket.Query
