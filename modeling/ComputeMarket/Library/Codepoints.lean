import Mathlib.Data.Nat.Digits.Lemmas

/-!
# Texts as code points

A text of a language whose strings are sequences of code points, surrogates among them: what a
scan of it takes, the decimal digits of a number, and the literals in which JSON writes it
(`encodeString`, `decodeString`).

`scanString_encodeString` and `decodeString_encodeString` are that a literal is found where it
was written, and read as what was written, whatever is behind it.
-/

namespace ComputeMarket.Texts

abbrev Text : Type := List ℕ

instance : LawfulBEq Text := inferInstance

def points (text : String) : Text := text.toList.map Char.toNat

section

variable {α : Type*} {p : α → Bool}

/-- A scan takes what is all of its class, up to the first of another. -/
theorem takeWhile_of_all {piece behind : List α} (all : ∀ point ∈ piece, p point = true)
    (ends : ∀ point ∈ behind.head?, p point = false) : (piece ++ behind).takeWhile p = piece := by
  rw [List.takeWhile_append_of_pos all]
  cases behind with
  | nil => rw [List.takeWhile_nil, List.append_nil]
  | cons point rest => rw [List.takeWhile_cons_of_neg (by simp [ends point rfl]), List.append_nil]

theorem dropWhile_of_all {piece behind : List α} (all : ∀ point ∈ piece, p point = true)
    (ends : ∀ point ∈ behind.head?, p point = false) : (piece ++ behind).dropWhile p = behind := by
  rw [List.dropWhile_append_of_pos all]
  cases behind with
  | nil => rfl
  | cons point rest => rw [List.dropWhile_cons_of_neg (by simp [ends point rfl])]

end

/-! ## Digits -/

def digitsOf (number : ℕ) : List ℕ :=
  if number = 0 then [0] else (Nat.digits 10 number).reverse

def numberOf (digits : List ℕ) : ℕ :=
  Nat.ofDigits 10 digits.reverse

def digitPoints (digits : List ℕ) : Text :=
  digits.map ('0'.toNat + ·)

theorem digitsOf_ne_nil (number : ℕ) : digitsOf number ≠ [] := by
  unfold digitsOf
  split
  · exact List.cons_ne_nil _ _
  next some' => rwa [ne_eq, List.reverse_eq_nil_iff, Nat.digits_eq_nil_iff_eq_zero]

theorem lt_of_mem_digitsOf {number digit : ℕ} (inside : digit ∈ digitsOf number) : digit < 10 := by
  unfold digitsOf at inside
  split at inside
  · rw [List.mem_singleton.mp inside]
    decide
  · exact Nat.digits_lt_base (by decide) (List.mem_reverse.mp inside)

@[simp] theorem numberOf_digitsOf (number : ℕ) : numberOf (digitsOf number) = number := by
  unfold numberOf digitsOf
  split
  next zero =>
    subst zero
    rfl
  next => rw [List.reverse_reverse, Nat.ofDigits_digits]

theorem numberOf_append (front behind : List ℕ) :
    numberOf (front ++ behind) = numberOf front * 10 ^ behind.length + numberOf behind := by
  unfold numberOf
  rw [List.reverse_append, Nat.ofDigits_append, List.length_reverse]
  ring

@[simp] theorem numberOf_replicate_zero (count : ℕ) : numberOf (List.replicate count 0) = 0 := by
  unfold numberOf
  rw [List.reverse_replicate, Nat.ofDigits_replicate_zero]

theorem numberOf_lt {digits : List ℕ} (small : ∀ digit ∈ digits, digit < 10) :
    numberOf digits < 10 ^ digits.length := by
  have below := Nat.ofDigits_lt_base_pow_length (b := 10) (l := digits.reverse) (by decide)
    fun digit inside => small digit (List.mem_reverse.mp inside)
  rwa [List.length_reverse] at below

theorem length_digitsOf_le {number count : ℕ} (some' : 0 < count) :
    (digitsOf number).length ≤ count ↔ number < 10 ^ count := by
  unfold digitsOf
  split
  next zero =>
    subst zero
    exact iff_of_true some' (Nat.pow_pos (by decide))
  next => rw [List.length_reverse, Nat.digits_length_le_iff (by decide)]

theorem length_digitsOf_pos (number : ℕ) : 0 < (digitsOf number).length :=
  List.length_pos_iff.mpr (digitsOf_ne_nil number)

theorem lt_pow_digitsOf (number : ℕ) : number < 10 ^ (digitsOf number).length :=
  (length_digitsOf_le (length_digitsOf_pos number)).mp le_rfl

theorem pow_le_of_digitsOf {number : ℕ} (some' : number ≠ 0) :
    10 ^ ((digitsOf number).length - 1) ≤ number := by
  have filled := length_digitsOf_pos number
  by_contra less
  rcases Nat.eq_zero_or_pos ((digitsOf number).length - 1) with none | more
  · rw [none, pow_zero] at less
    omega
  · have fewer := (length_digitsOf_le more).mpr (not_le.mp less)
    omega

/-! ## JSON literals of texts -/

def hexPoint (digit : ℕ) : ℕ :=
  if digit < 10 then '0'.toNat + digit else 'a'.toNat + (digit - 10)

def hexValue (point : ℕ) : Option ℕ :=
  if '0'.toNat ≤ point ∧ point ≤ '9'.toNat then some (point - '0'.toNat)
  else if 'a'.toNat ≤ point ∧ point ≤ 'f'.toNat then some (point - 'a'.toNat + 10)
  else if 'A'.toNat ≤ point ∧ point ≤ 'F'.toNat then some (point - 'A'.toNat + 10)
  else none

/-- What a code point is written as: escaped where it is a quote, a backslash or a control. -/
def encodePoint (point : ℕ) : Text :=
  if point = '"'.toNat then points "\\\""
  else if point = '\\'.toNat then points "\\\\"
  else if point = '\n'.toNat then points "\\n"
  else if point = '\r'.toNat then points "\\r"
  else if point = '\t'.toNat then points "\\t"
  else if point = 0x0C then points "\\f"
  else if point = 0x08 then points "\\b"
  else if point < 0x20 then points "\\u00" ++ [hexPoint (point / 16), hexPoint (point % 16)]
  else [point]

def encodeString (text : Text) : Text := text.flatMap encodePoint

/-- The literal of a text up to the quote that ends it, and what is behind. -/
def scanString : Bool → Text → Option (Text × Text)
  | _, [] => none
  | escaped, point :: rest =>
    if point = '"'.toNat ∧ escaped = false then some ([], rest)
    else (scanString (decide (point = '\\'.toNat ∧ escaped = false)) rest).map fun parts =>
      (point :: parts.1, parts.2)

def hexUnit (digits : Text) : Option ℕ :=
  match digits.mapM hexValue with
  | some [first, second, third, fourth] =>
    some (((first * 16 + second) * 16 + third) * 16 + fourth)
  | _ => none

def escaped? (letter : ℕ) : Option ℕ :=
  if letter = '"'.toNat ∨ letter = '\\'.toNat ∨ letter = '/'.toNat then some letter
  else if letter = 'b'.toNat then some 0x08
  else if letter = 'f'.toNat then some 0x0C
  else if letter = 'n'.toNat then some '\n'.toNat
  else if letter = 'r'.toNat then some '\r'.toNat
  else if letter = 't'.toNat then some '\t'.toNat
  else none

/-- The code point of a high surrogate and the low one whose escape is next. -/
def joined? (unit : ℕ) (behind : Text) : Option ℕ :=
  if 0xD800 ≤ unit ∧ unit ≤ 0xDBFF ∧ behind.take 2 = points "\\u" then
    (hexUnit ((behind.drop 2).take 4)).bind fun low =>
      if 0xDC00 ≤ low ∧ low ≤ 0xDFFF then
        some (0x10000 + (unit - 0xD800) * 0x400 + (low - 0xDC00))
      else none
  else none

def decodeString : Text → Option Text
  | [] => some []
  | point :: rest =>
    if point = '\\'.toNat then
      match rest with
      | [] => none
      | letter :: behind =>
        if letter = 'u'.toNat then
          (hexUnit (behind.take 4)).bind fun unit =>
            match joined? unit (behind.drop 4) with
            | some whole => (decodeString (behind.drop 10)).map (whole :: ·)
            | none => (decodeString (behind.drop 4)).map (unit :: ·)
        else (escaped? letter).bind fun meant => (decodeString behind).map (meant :: ·)
    else if point = '"'.toNat ∨ point < 0x20 then none
    else (decodeString rest).map (point :: ·)
termination_by text => text.length
decreasing_by
  all_goals
    simp only [List.length_cons, List.length_drop]
    omega

theorem length_of_scanString {escaped : Bool} {text inside behind : Text}
    (scanned : scanString escaped text = some (inside, behind)) : behind.length < text.length := by
  induction text generalizing escaped inside behind with
  | nil => cases scanned
  | cons point rest ih =>
    unfold scanString at scanned
    split at scanned
    next =>
      cases scanned
      exact Nat.lt_succ_self _
    next =>
      obtain ⟨parts, there, same⟩ := Option.map_eq_some_iff.mp scanned
      cases same
      exact (ih there).trans (Nat.lt_succ_self _)

/-- A code point is written behind a backslash, in hexadecimal digits, or as itself. -/
theorem encodePoint_cases (point : ℕ) :
    (∃ letter, encodePoint point = ['\\'.toNat, letter] ∧ letter ≠ 'u'.toNat ∧
      escaped? letter = some point) ∨
    (point < 0x20 ∧
      encodePoint point = points "\\u00" ++ [hexPoint (point / 16), hexPoint (point % 16)]) ∨
    (encodePoint point = [point] ∧ point ≠ '"'.toNat ∧ point ≠ '\\'.toNat ∧ 0x20 ≤ point) := by
  unfold encodePoint
  split
  next quote => exact .inl ⟨'"'.toNat, rfl, by decide, by rw [quote]; decide⟩
  split
  next backslash => exact .inl ⟨'\\'.toNat, rfl, by decide, by rw [backslash]; decide⟩
  split
  next newline => exact .inl ⟨'n'.toNat, rfl, by decide, by rw [newline]; decide⟩
  split
  next carriage => exact .inl ⟨'r'.toNat, rfl, by decide, by rw [carriage]; decide⟩
  split
  next tab => exact .inl ⟨'t'.toNat, rfl, by decide, by rw [tab]; decide⟩
  split
  next feed => exact .inl ⟨'f'.toNat, rfl, by decide, by rw [feed]; decide⟩
  split
  next back => exact .inl ⟨'b'.toNat, rfl, by decide, by rw [back]; decide⟩
  split
  next control => exact .inr (.inl ⟨control, rfl⟩)
  next quote backslash _ _ _ _ _ plain => exact .inr (.inr ⟨rfl, quote, backslash, not_lt.mp plain⟩)

/-- The digits that a control is written with are those of its number, and no quote or
backslash is among them. -/
theorem hexUnit_control : ∀ point < 0x20,
    hexUnit ['0'.toNat, '0'.toNat, hexPoint (point / 16), hexPoint (point % 16)] = some point ∧
      hexPoint (point / 16) ≠ '"'.toNat ∧ hexPoint (point / 16) ≠ '\\'.toNat ∧
      hexPoint (point % 16) ≠ '"'.toNat ∧ hexPoint (point % 16) ≠ '\\'.toNat := by
  decide

/-- A code point's text is passed over by the scan for the end of the literal. -/
theorem scanString_encodePoint (point : ℕ) (text : Text) :
    scanString false (encodePoint point ++ text) =
      (scanString false text).map fun parts => (encodePoint point ++ parts.1, parts.2) := by
  rcases encodePoint_cases point with ⟨letter, written, -, -⟩ | ⟨control, written⟩ |
    ⟨written, quote, backslash, -⟩
  · rw [written]
    simp [scanString, Function.comp_def]
  · obtain ⟨-, quote, backslash, quote', backslash'⟩ := hexUnit_control point control
    rw [written]
    simp only [points] at *
    simp_all [scanString, Function.comp_def]
  · rw [written]
    simp_all [scanString]

/-- **A literal ends where it was ended.** -/
theorem scanString_encodeString (text behind : Text) :
    scanString false (encodeString text ++ '"'.toNat :: behind) =
      some (encodeString text, behind) := by
  induction text with
  | nil => rfl
  | cons point rest ih =>
    rw [encodeString, List.flatMap_cons, List.append_assoc, scanString_encodePoint]
    change (scanString false (encodeString rest ++ _)).map _ = _
    rw [ih]
    rfl

theorem joined?_of_small {unit : ℕ} (small : unit < 0x20) (behind : Text) :
    joined? unit behind = none :=
  if_neg fun high => by omega

theorem decodeString_encodePoint (point : ℕ) (text : Text) :
    decodeString (encodePoint point ++ text) = (decodeString text).map (point :: ·) := by
  rcases encodePoint_cases point with ⟨letter, written, other, meant⟩ | ⟨control, written⟩ |
    ⟨written, quote, backslash, plain⟩
  · rw [written, List.cons_append, List.singleton_append, decodeString, if_pos rfl, if_neg other, meant]
    rfl
  · obtain ⟨unit, -⟩ := hexUnit_control point control
    rw [written]
    change decodeString ('\\'.toNat :: 'u'.toNat :: '0'.toNat :: '0'.toNat ::
      hexPoint (point / 16) :: hexPoint (point % 16) :: text) = _
    rw [decodeString, if_pos rfl, if_pos rfl]
    simp only [List.take_succ_cons, List.take_zero, List.drop_succ_cons, List.drop_zero, unit,
      Option.bind_some, joined?_of_small control]
  · rw [written, List.singleton_append]
    conv_lhs => rw [decodeString.eq_def]
    dsimp only
    rw [if_neg backslash, if_neg (by omega)]

/-- **A literal is read as what it was written of.** -/
theorem decodeString_encodeString (text : Text) : decodeString (encodeString text) = some text := by
  induction text with
  | nil => rw [encodeString, List.flatMap_nil, decodeString]
  | cons point rest ih =>
    rw [encodeString, List.flatMap_cons, decodeString_encodePoint]
    change (decodeString (encodeString rest)).map _ = _
    rw [ih]
    rfl

end ComputeMarket.Texts
