import ComputeMarket.Library.Codepoints
import Mathlib.Data.List.DropRight
import Mathlib.Tactic.FieldSimp

/-!
# Plain decimal texts

A number written with digits and at most one point: `plainDecimal` are the texts that one reads,
`decimalText` the one that a coefficient and a scale are written as, `decimalValue` the number
that a text denotes.

What is written is canonical (`canonical_decimalText`) and denotes what was written
(`decimalValue_decimalText`), and a number has one canonical text (`canonical_ext`).
-/

namespace ComputeMarket.Texts

/-! ## Texts of digits -/

variable {digit : ℕ} {text : Text}

def isDigit (point : ℕ) : Bool := '0'.toNat ≤ point && point ≤ '9'.toNat

def pointDigits (text : Text) : List ℕ := text.map (· - '0'.toNat)

/-- A whole number, without a zero in front that is not needed. -/
def wholeText (text : Text) : Bool :=
  text = ['0'.toNat] || (!text.isEmpty && text.head? ≠ some '0'.toNat)

/-- `(?:0|[1-9][0-9]*)(?:\.[0-9]+)?`. -/
def plainDecimal (text : Text) : Bool :=
  wholeText (text.takeWhile isDigit) &&
    match text.dropWhile isDigit with
    | [] => true
    | point :: fraction => point = '.'.toNat && !fraction.isEmpty && fraction.all isDigit

def partition (text : Text) : Text × Text :=
  (text.takeWhile (· ≠ '.'.toNat), (text.dropWhile (· ≠ '.'.toNat)).drop 1)

def decimalValue (text : Text) : ℚ :=
  numberOf (pointDigits ((partition text).1 ++ (partition text).2)) / 10 ^ (partition text).2.length

def Canonical (text : Text) : Prop :=
  plainDecimal text = true ∧ (partition text).2.getLast? ≠ some '0'.toNat

def decimalOf (whole fraction : List ℕ) : Text :=
  digitPoints whole ++ if fraction = [] then [] else '.'.toNat :: digitPoints fraction

/-- The text of `coefficient / 10 ^ scale`, from the digits of the coefficient. -/
def decimalText (digits : Text) (scale : ℕ) : Text :=
  let padded := List.replicate (scale + 1 - digits.length) '0'.toNat ++ digits
  if scale = 0 then padded
  else
    let whole := padded.take (padded.length - scale)
    let fraction := (padded.drop (padded.length - scale)).rdropWhile (· = '0'.toNat)
    if fraction = [] then whole else whole ++ '.'.toNat :: fraction

theorem decimalValue_nonneg (text : Text) : 0 ≤ decimalValue text :=
  div_nonneg (Nat.cast_nonneg _) (pow_nonneg (by norm_num) _)

theorem isDigit_of_lt (small : digit < 10) : isDigit ('0'.toNat + digit) = true := by
  have := small
  simp only [isDigit, Bool.and_eq_true, decide_eq_true_eq]
  refine ⟨Nat.le_add_right _ _, ?_⟩
  change 48 + digit ≤ 57
  omega

theorem lt_of_isDigit {point : ℕ} (digit : isDigit point = true) :
    point - '0'.toNat < 10 ∧ '0'.toNat + (point - '0'.toNat) = point := by
  simp only [isDigit, Bool.and_eq_true, decide_eq_true_eq] at digit
  obtain ⟨low, high⟩ := digit
  change 48 ≤ point at low
  change point ≤ 57 at high
  change point - 48 < 10 ∧ 48 + (point - 48) = point
  omega

theorem ne_point_of_isDigit {point : ℕ} (digit : isDigit point = true) : point ≠ '.'.toNat := by
  rintro rfl
  cases digit

@[simp] theorem pointDigits_digitPoints (digits : List ℕ) :
    pointDigits (digitPoints digits) = digits := by
  simp [pointDigits, digitPoints, Function.comp_def]

@[simp] theorem length_digitPoints (digits : List ℕ) :
    (digitPoints digits).length = digits.length := List.length_map _

theorem all_isDigit_digitPoints {digits : List ℕ} (small : ∀ digit ∈ digits, digit < 10) :
    ∀ point ∈ digitPoints digits, isDigit point = true := by
  intro point inside
  obtain ⟨digit, member, rfl⟩ := List.mem_map.mp inside
  exact isDigit_of_lt (small digit member)

theorem digitPoints_pointDigits (digits : ∀ point ∈ text, isDigit point = true) :
    digitPoints (pointDigits text) = text := by
  rw [digitPoints, pointDigits, List.map_map]
  exact (List.map_congr_left fun point inside => (lt_of_isDigit (digits point inside)).2).trans
    (List.map_id _)

theorem lt_of_mem_pointDigits (digits : ∀ point ∈ text, isDigit point = true)
    (inside : digit ∈ pointDigits text) : digit < 10 := by
  obtain ⟨point, member, rfl⟩ := List.mem_map.mp inside
  exact (lt_of_isDigit (digits point member)).1

theorem digitPoints_inj {first second : List ℕ} (same : digitPoints first = digitPoints second) :
    first = second := by
  rw [← pointDigits_digitPoints first, same, pointDigits_digitPoints]

/-- The digits of an integer that the language converts from a text or to one. -/
def maxStrDigits : ℕ := 4300

/-- `int(text)` of a text of digits. -/
def intOf (digits : Text) : Option ℕ :=
  if digits.length ≤ maxStrDigits then some (numberOf (pointDigits digits)) else none

/-- `str(number)`. -/
def strOf (number : ℕ) : Option Text :=
  if (digitsOf number).length ≤ maxStrDigits then some (digitPoints (digitsOf number)) else none

/-- `str(number)` of an integer. -/
def strOfInt (number : ℤ) : Option Text :=
  (strOf number.natAbs).map fun digits => if number < 0 then '-'.toNat :: digits else digits

theorem strOf_of_short {number : ℕ} (short : number < 10 ^ maxStrDigits) :
    strOf number = some (digitPoints (digitsOf number)) :=
  if_pos ((length_digitsOf_le (by decide)).mpr short)

theorem strOf_of_long {number : ℕ} (long : ¬number < 10 ^ maxStrDigits) : strOf number = none :=
  if_neg fun short => long ((length_digitsOf_le (by decide)).mp short)

/-! ## The two parts of a text -/

variable {whole : List ℕ}

theorem partition_append (point : '.'.toNat ∈ text) :
    (partition text).1 ++ '.'.toNat :: (partition text).2 = text := by
  unfold partition
  induction text with
  | nil => cases point
  | cons first rest ih =>
    by_cases here : first = '.'.toNat
    · subst here
      rw [List.takeWhile_cons_of_neg (by simp), List.dropWhile_cons_of_neg (by simp)]
      rfl
    · rw [List.takeWhile_cons_of_pos (by simpa using here),
        List.dropWhile_cons_of_pos (by simpa using here)]
      exact congrArg (first :: ·) (ih ((List.mem_cons.mp point).resolve_left (Ne.symm here)))

theorem partition_of_clear {front behind : Text} (clear : '.'.toNat ∉ front) :
    partition (front ++ '.'.toNat :: behind) = (front, behind) := by
  have noPoint : ∀ point ∈ front, (point ≠ '.'.toNat : Bool) = true :=
    fun point inside => decide_eq_true fun same => clear (same ▸ inside)
  have ends : ∀ point ∈ ('.'.toNat :: behind).head?, (point ≠ '.'.toNat : Bool) = false := by
    intro point first
    cases first
    decide
  unfold partition
  rw [takeWhile_of_all noPoint ends, dropWhile_of_all noPoint ends]
  rfl

/-- The digits of a whole number, without a zero in front that is not needed. -/
def WholeDigits (whole : List ℕ) : Prop := whole = [0] ∨ whole ≠ [] ∧ whole.head? ≠ some 0

theorem wholeText_digitPoints :
    wholeText (digitPoints whole) = true ↔ WholeDigits whole := by
  have zero : digitPoints whole = ['0'.toNat] ↔ whole = [0] :=
    ⟨fun same => digitPoints_inj same, fun same => by rw [same]; rfl⟩
  have front : (digitPoints whole).head? = some '0'.toNat ↔ whole.head? = some 0 := by
    cases whole with
    | nil => exact iff_of_false (by simp [digitPoints]) (by simp)
    | cons digit rest =>
      simp only [digitPoints, List.map_cons, List.head?_cons, Option.some.injEq]
      omega
  have filled : (digitPoints whole).isEmpty = true ↔ whole = [] := by
    rw [List.isEmpty_iff, digitPoints, List.map_eq_nil_iff]
  unfold wholeText WholeDigits
  rw [Bool.or_eq_true, Bool.and_eq_true, decide_eq_true_eq, decide_eq_true_eq, zero, ne_eq, ne_eq,
    front, Bool.not_eq_true', ← Bool.not_eq_true, filled]

section

variable {whole fraction : List ℕ}

theorem scan_decimalOf (small : ∀ digit ∈ whole, digit < 10) :
    (decimalOf whole fraction).takeWhile isDigit = digitPoints whole ∧
      (decimalOf whole fraction).dropWhile isDigit =
        if fraction = [] then [] else '.'.toNat :: digitPoints fraction := by
  have ends : ∀ point ∈ (if fraction = [] then [] else
      '.'.toNat :: digitPoints fraction).head?, isDigit point = false := by
    intro point first
    split at first
    · cases first
    · cases first
      decide
  exact ⟨takeWhile_of_all (all_isDigit_digitPoints small) ends,
    dropWhile_of_all (all_isDigit_digitPoints small) ends⟩

theorem partition_decimalOf (small : ∀ digit ∈ whole, digit < 10) :
    partition (decimalOf whole fraction) = (digitPoints whole, digitPoints fraction) := by
  have noPoint : ∀ point ∈ digitPoints whole, (point ≠ '.'.toNat : Bool) = true := by
    intro point inside
    exact decide_eq_true (ne_point_of_isDigit (all_isDigit_digitPoints small point inside))
  have ends : ∀ point ∈ (if fraction = [] then [] else
      '.'.toNat :: digitPoints fraction).head?, (point ≠ '.'.toNat : Bool) = false := by
    intro point first
    split at first
    · cases first
    · cases first
      decide
  unfold partition decimalOf
  refine Prod.ext (takeWhile_of_all noPoint ends) ?_
  dsimp only
  rw [dropWhile_of_all noPoint ends]
  split
  next none => rw [none]; rfl
  next => rfl

theorem plainDecimal_decimalOf (smallWhole : ∀ digit ∈ whole, digit < 10)
    (smallFraction : ∀ digit ∈ fraction, digit < 10) :
    plainDecimal (decimalOf whole fraction) = true ↔ WholeDigits whole := by
  obtain ⟨taken, left⟩ := @scan_decimalOf whole fraction smallWhole
  unfold plainDecimal
  rw [taken, left, Bool.and_eq_true, wholeText_digitPoints, and_iff_left_iff_imp]
  intro _
  split
  · rfl
  next point rest same =>
  split at same
  · cases same
  next filled =>
  cases same
  simp only [Bool.and_eq_true, decide_eq_true_eq, true_and, Bool.not_eq_true',
    List.isEmpty_eq_false_iff, List.all_eq_true]
  exact ⟨fun none => filled (digitPoints_inj none), all_isDigit_digitPoints smallFraction⟩

theorem decimalValue_decimalOf (small : ∀ digit ∈ whole, digit < 10) :
    decimalValue (decimalOf whole fraction) =
      (numberOf (whole ++ fraction) : ℚ) / 10 ^ fraction.length := by
  unfold decimalValue
  rw [partition_decimalOf small]
  dsimp only
  rw [length_digitPoints, digitPoints, digitPoints, ← List.map_append]
  congr 3
  exact pointDigits_digitPoints _

theorem canonical_decimalOf (smallWhole : ∀ digit ∈ whole, digit < 10)
    (smallFraction : ∀ digit ∈ fraction, digit < 10) :
    Canonical (decimalOf whole fraction) ↔ WholeDigits whole ∧ fraction.getLast? ≠ some 0 := by
  unfold Canonical
  rw [plainDecimal_decimalOf smallWhole smallFraction, partition_decimalOf smallWhole]
  refine and_congr_right fun _ => not_congr ?_
  dsimp only
  rw [digitPoints, List.getLast?_map]
  cases fraction.getLast? with
  | none => exact iff_of_false (by simp) (by simp)
  | some digit =>
    simp only [Option.map_some, Option.some.injEq]
    omega

end

theorem exists_decimalOf (plain : plainDecimal text = true) :
    ∃ whole fraction, (∀ digit ∈ whole, digit < 10) ∧ (∀ digit ∈ fraction, digit < 10) ∧
      text = decimalOf whole fraction := by
  unfold plainDecimal at plain
  rw [Bool.and_eq_true] at plain
  obtain ⟨-, behind⟩ := plain
  have digits : ∀ point ∈ text.takeWhile isDigit, isDigit point = true :=
    fun point inside => List.mem_takeWhile_imp inside
  have cut := List.takeWhile_append_dropWhile (p := isDigit) (l := text)
  split at behind
  next ended =>
    refine ⟨pointDigits (text.takeWhile isDigit), [], fun digit => lt_of_mem_pointDigits digits,
      fun _ none => (List.not_mem_nil none).elim, ?_⟩
    rw [decimalOf, if_pos rfl, digitPoints_pointDigits digits, ← ended, cut]
  next point fraction more =>
  simp only [Bool.and_eq_true, decide_eq_true_eq, Bool.not_eq_true', List.isEmpty_eq_false_iff,
    List.all_eq_true] at behind
  obtain ⟨⟨rfl, filled⟩, fractionDigits⟩ := behind
  refine ⟨pointDigits (text.takeWhile isDigit), pointDigits fraction,
    fun digit => lt_of_mem_pointDigits digits, fun digit => lt_of_mem_pointDigits fractionDigits, ?_⟩
  have some' : pointDigits fraction ≠ [] := by
    rwa [ne_eq, pointDigits, List.map_eq_nil_iff]
  rw [decimalOf, if_neg some', digitPoints_pointDigits digits,
    digitPoints_pointDigits fractionDigits, ← more, cut]

/-! ## Writing -/

/-- Digits behind as many zeros as make them one more than the scale. -/
def paddedDigits (digits : List ℕ) (scale : ℕ) : List ℕ :=
  List.replicate (scale + 1 - digits.length) 0 ++ digits

def wholeOf (digits : List ℕ) (scale : ℕ) : List ℕ :=
  (paddedDigits digits scale).take ((paddedDigits digits scale).length - scale)

def fractionOf (digits : List ℕ) (scale : ℕ) : List ℕ :=
  ((paddedDigits digits scale).drop ((paddedDigits digits scale).length - scale)).rdropWhile
    (· = 0)

theorem rdropWhile_digitPoints (digits : List ℕ) :
    (digitPoints digits).rdropWhile (· = '0'.toNat) = digitPoints (digits.rdropWhile (· = 0)) := by
  have same : ((fun point : ℕ => decide (point = '0'.toNat)) ∘ ('0'.toNat + ·)) =
      fun digit : ℕ => decide (digit = 0) := by
    funext digit
    change decide ('0'.toNat + digit = '0'.toNat) = decide (digit = 0)
    exact decide_eq_decide.mpr (by omega)
  rw [List.rdropWhile, List.rdropWhile, digitPoints, digitPoints, ← List.map_reverse,
    List.dropWhile_map, same, List.map_reverse]

theorem length_paddedDigits (digits : List ℕ) (scale : ℕ) :
    scale + 1 ≤ (paddedDigits digits scale).length := by
  rw [paddedDigits, List.length_append, List.length_replicate]
  omega

/-- What is written are the whole part's digits and the fraction's. -/
theorem decimalText_digitPoints (digits : List ℕ) (scale : ℕ) :
    decimalText (digitPoints digits) scale =
      decimalOf (wholeOf digits scale) (fractionOf digits scale) := by
  have padded : List.replicate (scale + 1 - (digitPoints digits).length) '0'.toNat ++
      digitPoints digits = digitPoints (paddedDigits digits scale) := by
    rw [paddedDigits, digitPoints, digitPoints, List.map_append, List.map_replicate,
      List.length_map]
    rfl
  unfold decimalText
  rw [padded]
  dsimp only
  split
  next zero =>
    subst zero
    rw [wholeOf, fractionOf, Nat.sub_zero, List.take_length, List.drop_length, List.rdropWhile_nil,
      decimalOf, if_pos rfl, List.append_nil]
  next =>
    have whole : (digitPoints (paddedDigits digits scale)).take
        ((digitPoints (paddedDigits digits scale)).length - scale) =
          digitPoints (wholeOf digits scale) := by
      rw [wholeOf, length_digitPoints, digitPoints, digitPoints, List.map_take]
    have fraction : ((digitPoints (paddedDigits digits scale)).drop
        ((digitPoints (paddedDigits digits scale)).length - scale)).rdropWhile (· = '0'.toNat) =
          digitPoints (fractionOf digits scale) := by
      rw [fractionOf, length_digitPoints, ← rdropWhile_digitPoints, digitPoints, digitPoints,
        List.map_drop]
    have none : digitPoints (fractionOf digits scale) = [] ↔ fractionOf digits scale = [] :=
      List.map_eq_nil_iff
    rw [whole, fraction, decimalOf]
    simp only [none]
    split
    · rw [List.append_nil]
    · rfl

section

variable (number scale : ℕ)

theorem lt_of_mem_paddedDigits (inside : digit ∈ paddedDigits (digitsOf number) scale) :
    digit < 10 := by
  rcases List.mem_append.mp inside with zero | own
  · rw [List.eq_of_mem_replicate zero]
    decide
  · exact lt_of_mem_digitsOf own

theorem lt_of_mem_wholeOf : ∀ digit ∈ wholeOf (digitsOf number) scale, digit < 10 :=
  fun _ inside => lt_of_mem_paddedDigits number scale (List.mem_of_mem_take inside)

theorem lt_of_mem_fractionOf : ∀ digit ∈ fractionOf (digitsOf number) scale, digit < 10 :=
  fun _ inside => lt_of_mem_paddedDigits number scale
    (List.mem_of_mem_drop ((List.rdropWhile_prefix _ _).subset inside))

/-- A number is written without a zero in front that is not needed. -/
theorem wholeDigits_digitsOf : WholeDigits (digitsOf number) := by
  unfold digitsOf
  split
  · exact .inl rfl
  next some' =>
  refine .inr ⟨?_, ?_⟩
  · rwa [ne_eq, List.reverse_eq_nil_iff, Nat.digits_eq_nil_iff_eq_zero]
  · rw [List.head?_reverse, List.getLast?_eq_some_getLast (Nat.digits_ne_nil_iff_ne_zero.mpr some'),
      ne_eq, Option.some.injEq]
    exact Nat.getLast_digit_ne_zero 10 some'

theorem wholeDigits_wholeOf : WholeDigits (wholeOf (digitsOf number) scale) := by
  have longer := length_paddedDigits (digitsOf number) scale
  rcases Nat.lt_or_ge scale (digitsOf number).length with long | short
  · -- The number's own digits reach in front of the point.
    have own : paddedDigits (digitsOf number) scale = digitsOf number := by
      rw [paddedDigits, Nat.sub_eq_zero_of_le long]
      rfl
    have taken : (digitsOf number).length - scale ≠ 0 := by omega
    rw [wholeOf, own]
    rcases wholeDigits_digitsOf number with zero | ⟨filled, front⟩
    · left
      rw [zero] at taken ⊢
      rw [List.take_of_length_le]
      simp only [List.length_cons, List.length_nil] at taken ⊢
      omega
    · right
      constructor
      · rw [ne_eq, List.take_eq_nil_iff, not_or]
        exact ⟨taken, filled⟩
      · rwa [List.head?_take, if_neg taken]
  · left
    have one : (paddedDigits (digitsOf number) scale).length - scale = 1 := by
      rw [paddedDigits, List.length_append, List.length_replicate] at *
      omega
    rw [wholeOf, one, paddedDigits, Nat.sub_add_comm short, List.replicate_succ]
    rfl

theorem getLast?_fractionOf : (fractionOf (digitsOf number) scale).getLast? ≠ some 0 := by
  intro last
  have filled : fractionOf (digitsOf number) scale ≠ [] := by
    intro none
    rw [none] at last
    cases last
  rw [List.getLast?_eq_some_getLast filled, Option.some.injEq] at last
  exact List.rdropWhile_last_not _ _ filled (decide_eq_true last)

/-- **What is written is canonical.** -/
theorem canonical_decimalText : Canonical (decimalText (digitPoints (digitsOf number)) scale) := by
  rw [decimalText_digitPoints, canonical_decimalOf (lt_of_mem_wholeOf number scale)
    (lt_of_mem_fractionOf number scale)]
  exact ⟨wholeDigits_wholeOf number scale, getLast?_fractionOf number scale⟩

theorem exists_zeros : ∃ zeros, paddedDigits (digitsOf number) scale =
    wholeOf (digitsOf number) scale ++ fractionOf (digitsOf number) scale ++
      List.replicate zeros 0 ∧
    (fractionOf (digitsOf number) scale).length + zeros = scale := by
  set padded := paddedDigits (digitsOf number) scale with isPadded
  have longer : scale + 1 ≤ padded.length := length_paddedDigits (digitsOf number) scale
  set back := padded.drop (padded.length - scale) with isBack
  have tail : back.rdropWhile (· = 0) ++ back.rtakeWhile (· = 0) = back :=
    List.rdropWhile_append_rtakeWhile
  have zeros : back.rtakeWhile (· = 0) =
      List.replicate (back.rtakeWhile (· = 0)).length 0 :=
    List.eq_replicate_of_mem fun digit inside => by
      simpa using List.mem_rtakeWhile_imp inside
  refine ⟨(back.rtakeWhile (· = 0)).length, ?_, ?_⟩
  · change padded = padded.take (padded.length - scale) ++ back.rdropWhile (· = 0) ++ _
    rw [← zeros, List.append_assoc, tail, isBack, List.take_append_drop]
  · change (back.rdropWhile (· = 0)).length + _ = scale
    rw [← List.length_append, tail, isBack, List.length_drop]
    omega

/-- **What is written denotes what was written.** -/
theorem decimalValue_decimalText :
    decimalValue (decimalText (digitPoints (digitsOf number)) scale) = (number : ℚ) / 10 ^ scale := by
  obtain ⟨zeros, cut, length⟩ := exists_zeros number scale
  have padded : numberOf (paddedDigits (digitsOf number) scale) = number := by
    rw [paddedDigits, numberOf_append, numberOf_replicate_zero, numberOf_digitsOf, zero_mul, zero_add]
  rw [cut, numberOf_append _ (List.replicate zeros 0), numberOf_replicate_zero,
    List.length_replicate, add_zero] at padded
  rw [decimalText_digitPoints, decimalValue_decimalOf (lt_of_mem_wholeOf number scale)]
  have shifted : (numberOf (wholeOf (digitsOf number) scale ++
      fractionOf (digitsOf number) scale) : ℚ) * 10 ^ zeros = number := by
    exact_mod_cast padded
  rw [div_eq_div_iff (by positivity) (by positivity), ← shifted, mul_assoc, ← pow_add,
    Nat.add_comm zeros, length]

end

/-! ## One canonical text -/

theorem digitsOf_numberOf (small : ∀ digit ∈ whole, digit < 10) (written : WholeDigits whole) :
    digitsOf (numberOf whole) = whole := by
  rcases written with rfl | ⟨filled, front⟩
  · rfl
  · have last : ∀ some' : whole.reverse ≠ [], whole.reverse.getLast some' ≠ 0 := by
      intro some' zero
      refine front ?_
      rw [← List.getLast?_reverse, List.getLast?_eq_some_getLast some', zero]
    have own := Nat.digits_ofDigits 10 (by decide) whole.reverse
      (fun digit inside => small digit (List.mem_reverse.mp inside)) last
    have positive : numberOf whole ≠ 0 := by
      intro zero
      unfold numberOf at zero
      rw [zero, Nat.digits_zero] at own
      exact filled (List.reverse_eq_nil_iff.mp own.symm)
    rw [digitsOf, if_neg positive, numberOf, own, List.reverse_reverse]

/-- A number that is a multiple of ten ends with a zero. -/
theorem getLast?_of_mod {digits : List ℕ} (small : ∀ digit ∈ digits, digit < 10)
    (filled : digits ≠ []) (multiple : numberOf digits % 10 = 0) : digits.getLast? = some 0 := by
  have cut := List.dropLast_append_getLast filled
  have last := small _ (List.getLast_mem filled)
  rw [← cut, numberOf_append] at multiple
  have one : numberOf [digits.getLast filled] = digits.getLast filled := by
    simp [numberOf]
  rw [one, List.length_singleton, pow_one] at multiple
  rw [List.getLast?_eq_some_getLast filled]
  exact congrArg some (by omega)

theorem length_le_of_same {whole' fraction fraction' : List ℕ}
    (small : ∀ digit ∈ fraction', digit < 10) (last : fraction'.getLast? ≠ some 0)
    (same : numberOf (whole ++ fraction) * 10 ^ fraction'.length =
      numberOf (whole' ++ fraction') * 10 ^ fraction.length) :
    fraction'.length ≤ fraction.length := by
  by_contra longer
  obtain ⟨more, count⟩ := Nat.exists_eq_add_of_lt (not_le.mp longer)
  rw [show fraction'.length = fraction.length + (more + 1) by omega, pow_add, ← mul_assoc,
    mul_right_comm, Nat.mul_right_cancel_iff (Nat.pow_pos (by decide)), pow_succ] at same
  have filled : fraction' ≠ [] := by
    rintro rfl
    exact longer (Nat.zero_le _)
  refine last (getLast?_of_mod small filled ?_)
  have cut := List.dropLast_append_getLast filled
  have whole : numberOf (whole' ++ fraction') =
      numberOf whole' * 10 ^ fraction'.length + numberOf fraction' := numberOf_append _ _
  have tens : 10 ^ fraction'.length = 10 ^ (fraction'.length - 1) * 10 := by
    rw [← pow_succ, Nat.sub_add_cancel (List.length_pos_iff.mpr filled)]
  rw [tens, ← mul_assoc] at whole
  rw [← mul_assoc] at same
  omega

theorem numberOf_inj {first second : List ℕ} (smallFirst : ∀ digit ∈ first, digit < 10)
    (smallSecond : ∀ digit ∈ second, digit < 10) (length : first.length = second.length)
    (same : numberOf first = numberOf second) : first = second := by
  refine List.reverse_injective (Nat.ofDigits_inj_of_len_eq (by decide) ?_ ?_ ?_ same)
  · rw [List.length_reverse, List.length_reverse, length]
  · exact fun digit inside => smallFirst digit (List.mem_reverse.mp inside)
  · exact fun digit inside => smallSecond digit (List.mem_reverse.mp inside)

/-- **A number has one canonical text.** -/
theorem canonical_ext {first second : Text} (canonical : Canonical first)
    (canonical' : Canonical second) (same : decimalValue first = decimalValue second) :
    first = second := by
  obtain ⟨whole, fraction, small, smallFraction, rfl⟩ := exists_decimalOf canonical.1
  obtain ⟨whole', fraction', small', smallFraction', rfl⟩ := exists_decimalOf canonical'.1
  obtain ⟨digits, last⟩ := (canonical_decimalOf small smallFraction).mp canonical
  obtain ⟨digits', last'⟩ := (canonical_decimalOf small' smallFraction').mp canonical'
  rw [decimalValue_decimalOf small, decimalValue_decimalOf small',
    div_eq_div_iff (by positivity) (by positivity)] at same
  have scaled : numberOf (whole ++ fraction) * 10 ^ fraction'.length =
      numberOf (whole' ++ fraction') * 10 ^ fraction.length := by
    exact_mod_cast same
  have length : fraction.length = fraction'.length :=
    le_antisymm (length_le_of_same smallFraction last scaled.symm)
      (length_le_of_same smallFraction' last' scaled)
  rw [length, Nat.mul_right_cancel_iff (Nat.pow_pos (by decide)), numberOf_append, numberOf_append,
    length] at scaled
  have below := numberOf_lt smallFraction
  have below' := numberOf_lt smallFraction'
  rw [length] at below
  have wholes : numberOf whole = numberOf whole' := by
    have quotient := congrArg (· / 10 ^ fraction'.length) scaled
    simpa [Nat.mul_add_div (Nat.pow_pos (show 0 < 10 by decide)), Nat.div_eq_of_lt below,
      Nat.div_eq_of_lt below', mul_comm] using quotient
  rw [wholes, Nat.add_left_cancel_iff] at scaled
  rw [numberOf_inj smallFraction smallFraction' length scaled, ← digitsOf_numberOf small digits,
    wholes, digitsOf_numberOf small' digits']

end ComputeMarket.Texts
