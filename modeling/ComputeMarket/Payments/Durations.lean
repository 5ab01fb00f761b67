import ComputeMarket.Library.DecimalTexts
import ComputeMarket.Query.Syntax

/-!
# Durations

The fixed-unit ISO 8601 durations of `mandates.py` and the wire pattern of `models.py`.

A pattern of both is a row of optional parts, `(?:(\d+)U)?` for a unit `U`, and a digit is never a
unit: `optionalPart` reads one part as the greedy match does, and no other split of the text
matches. What is spelled as a row of parts is read back part for part (`optionalPart_spelled`,
`optionalPart_other`), and so the three functions invert one another (`durations_round_trip`).
-/

namespace ComputeMarket.Payments

open Texts Query

/-! ## The grammar -/

/-- `\d`. -/
def isDecimal (table : DigitTable) (point : ℕ) : Bool := (table.value point).isSome

/-- `(?:(\d+)U)?` at the front of a text: the digits that it captures, and the rest. -/
def optionalPart (table : DigitTable) (unit : Char) (text : Text) : Option Text × Text :=
  match text.takeWhile (isDecimal table), text.dropWhile (isDecimal table) with
  | first :: digits, point :: rest =>
    if point = unit.toNat then (some (first :: digits), rest) else (none, text)
  | _, _ => (none, text)

/-- The groups of `_FIXED_DURATION`. -/
structure DurationFields where
  weeks : Option Text
  days : Option Text
  hours : Option Text
  minutes : Option Text
  seconds : Option Text
  deriving DecidableEq

/-- `_FIXED_DURATION.fullmatch`. -/
def fixedDuration (table : DigitTable) : Text → Option DurationFields
  | [] => none
  | mark :: text =>
    if mark = 'P'.toNat then
      let (weeks, text) := optionalPart table 'W' text
      let (days, text) := optionalPart table 'D' text
      match text with
      | [] => some ⟨weeks, days, none, none, none⟩
      | mark :: text =>
        if mark = 'T'.toNat then
          let (hours, text) := optionalPart table 'H' text
          let (minutes, text) := optionalPart table 'M' text
          let (seconds, text) := optionalPart table 'S' text
          if text = [] then some ⟨weeks, days, hours, minutes, seconds⟩ else none
        else none
    else none

def maxSafeInteger : ℕ := 9007199254740991

/-- `int(field or 0)`: an `int` is read from at most `maxStrDigits` digits. -/
def fieldAmount (table : DigitTable) : Option Text → Except String ℕ
  | none => .ok 0
  | some digits =>
    if digits.length ≤ maxStrDigits then .ok (numberOf (digits.filterMap table.value))
    else .error "Exceeds the limit (4300 digits) for integer string conversion"

def durationSeconds (table : DigitTable) (value : Text) : Except String ℕ :=
  match fixedDuration table value with
  | none => .error "duration must use fixed week, day, hour, minute, or second units"
  | some fields =>
    if fields = ⟨none, none, none, none, none⟩ then
      .error "duration must contain at least one unit"
    else do
      let weeks ← fieldAmount table fields.weeks
      let days ← fieldAmount table fields.days
      let hours ← fieldAmount table fields.hours
      let minutes ← fieldAmount table fields.minutes
      let seconds ← fieldAmount table fields.seconds
      let result := weeks * 7 * 24 * 60 * 60 + days * 24 * 60 * 60 + hours * 60 * 60 +
        minutes * 60 + seconds
      if maxSafeInteger < result then
        .error "duration exceeds the JSON wire integer range"
      else .ok result

/-- `f"{amount}{unit}"`. -/
def amountText (amount : ℕ) (unit : Char) : Text := digitPoints (digitsOf amount) ++ [unit.toNat]

def formatDuration (value : ℤ) : Except String Text :=
  if value < 0 ∨ (maxSafeInteger : ℤ) < value then
    .error "duration_seconds must be a nonnegative safe integer"
  else
    let days := value.toNat / 86400
    let remainder := value.toNat % 86400
    let hours := remainder / 3600
    let minutes := remainder % 3600 / 60
    let seconds := remainder % 3600 % 60
    let datePart := if days = 0 then [] else amountText days 'D'
    let timePart := [(hours, 'H'), (minutes, 'M'), (seconds, 'S')].flatMap fun part =>
      if part.1 = 0 then [] else amountText part.1 part.2
    let timePart := if datePart = [] ∧ timePart = [] then amountText 0 'S' else timePart
    .ok ('P'.toNat :: (datePart ++ if timePart = [] then [] else 'T'.toNat :: timePart))

/-- `$`: at the end, or in front of a last line break. -/
def atEnd (text : Text) : Bool := text = [] || text = ['\n'.toNat]

/-- The pattern of the wire model `Duration`. -/
def wireDuration (table : DigitTable) : Text → Bool
  | [] => false
  | mark :: text =>
    mark = 'P'.toNat && !atEnd text &&
      let text := (optionalPart table 'Y' text).2
      let text := (optionalPart table 'M' text).2
      let text := (optionalPart table 'W' text).2
      let text := (optionalPart table 'D' text).2
      match text with
      | [] => true
      | mark :: time =>
        if mark = 'T'.toNat then
          time.head?.any (isDecimal table) &&
            let time := (optionalPart table 'H' time).2
            let time := (optionalPart table 'M' time).2
            atEnd (optionalPart table 'S' time).2
        else atEnd (mark :: time)

/-! ## Spelled parts -/

variable {unit : Char}

def spelled (unit : Char) : Option Text → Text
  | none => []
  | some digits => digits ++ [unit.toNat]

variable {table : DigitTable}

structure Part (table : DigitTable) (unit : Char) (part : Option Text) : Prop where
  digits : ∀ digits ∈ part, digits ≠ [] ∧ ∀ point ∈ digits, isDecimal table point = true
  unit : isDecimal table unit.toNat = false

theorem takeWhile_digits {digits : Text} (rest : Text)
    (all : ∀ point ∈ digits, isDecimal table point = true)
    (ends : isDecimal table unit.toNat = false) :
    (digits ++ unit.toNat :: rest).takeWhile (isDecimal table) = digits ∧
      (digits ++ unit.toNat :: rest).dropWhile (isDecimal table) = unit.toNat :: rest := by
  constructor
  · rw [List.takeWhile_append_of_pos all, List.takeWhile_cons_of_neg (by simp [ends]),
      List.append_nil]
  · rw [List.dropWhile_append_of_pos all, List.dropWhile_cons_of_neg (by simp [ends])]

theorem optionalPart_of_digits {digits : Text} {other : Char} (rest : Text) (filled : digits ≠ [])
    (all : ∀ point ∈ digits, isDecimal table point = true)
    (ends : isDecimal table other.toNat = false) :
    optionalPart table unit (digits ++ other.toNat :: rest) =
      if other.toNat = unit.toNat then (some digits, rest)
      else (none, digits ++ other.toNat :: rest) := by
  obtain ⟨front, behind⟩ := takeWhile_digits rest all ends
  obtain ⟨first, more, rfl⟩ := List.exists_cons_of_ne_nil filled
  unfold optionalPart
  rw [front, behind]

def Unread (table : DigitTable) (unit : Char) (rest : Text) : Prop :=
  optionalPart table unit rest = (none, rest)

theorem unread_nil (unit : Char) : Unread table unit [] := rfl

theorem unread_mark {mark : Char} (rest : Text) (ends : isDecimal table mark.toNat = false) :
    Unread table unit (mark.toNat :: rest) := by
  unfold Unread optionalPart
  rw [List.takeWhile_cons_of_neg (by simp [ends])]

theorem optionalPart_spelled {part : Option Text} {rest : Text} (isPart : Part table unit part)
    (unread : Unread table unit rest) :
    optionalPart table unit (spelled unit part ++ rest) = (part, rest) := by
  cases part with
  | none => exact unread
  | some digits =>
    obtain ⟨filled, all⟩ := isPart.digits digits rfl
    rw [spelled, List.append_assoc, List.singleton_append,
      optionalPart_of_digits rest filled all isPart.unit, if_pos rfl]

theorem unread_other {other : Char} {part : Option Text} {rest : Text}
    (isPart : Part table other part) (differs : other.toNat ≠ unit.toNat)
    (unread : Unread table unit rest) : Unread table unit (spelled other part ++ rest) := by
  cases part with
  | none => exact unread
  | some digits =>
    obtain ⟨filled, all⟩ := isPart.digits digits rfl
    rw [Unread, spelled, List.append_assoc, List.singleton_append,
      optionalPart_of_digits rest filled all isPart.unit, if_neg differs]

theorem isDecimal_ascii {point : ℕ} (ascii : point < 128) :
    isDecimal table point = decide ('0'.toNat ≤ point ∧ point ≤ '9'.toNat) := by
  unfold isDecimal
  rw [table.ascii point ascii]
  split
  next range => rw [decide_eq_true range, Option.isSome_some]
  next range => rw [decide_eq_false range, Option.isSome_none]

theorem value_digit {digit : ℕ} (small : digit < 10) :
    table.value ('0'.toNat + digit) = some digit := by
  have low : '0'.toNat ≤ '0'.toNat + digit := Nat.le_add_right _ _
  have high : '0'.toNat + digit ≤ '9'.toNat := by
    change 48 + digit ≤ 57
    omega
  have ascii : '0'.toNat + digit < 128 := lt_of_le_of_lt high (by decide)
  rw [table.ascii _ ascii, if_pos ⟨low, high⟩, Nat.add_sub_cancel_left]

/-! ## What is formatted -/

variable {amount : ℕ} {text : Text}

def Writes (part : Option Text) (amount : ℕ) : Prop :=
  (part = none ∧ amount = 0) ∨ part = some (digitPoints (digitsOf amount))

/-- The text of days, hours, minutes and seconds: the time marker stands where one of the last
three is written. -/
def durationText (days hours minutes seconds : Option Text) : Text :=
  'P'.toNat :: (spelled 'D' days ++
    if hours = none ∧ minutes = none ∧ seconds = none then []
    else 'T'.toNat :: (spelled 'H' hours ++ (spelled 'M' minutes ++ spelled 'S' seconds)))

theorem Writes.part {part : Option Text} (writes : Writes part amount)
    (ends : isDecimal table unit.toNat = false) : Part table unit part := by
  refine ⟨fun digits isDigits => ?_, ends⟩
  rcases writes with ⟨absent, -⟩ | written
  · rw [absent] at isDigits
    cases isDigits
  · rw [written] at isDigits
    cases isDigits
    constructor
    · exact fun empty => digitsOf_ne_nil amount (List.map_eq_nil_iff.mp empty)
    · intro point inside
      obtain ⟨digit, member, rfl⟩ := List.mem_map.mp inside
      rw [isDecimal, value_digit (lt_of_mem_digitsOf member), Option.isSome_some]

theorem Writes.fieldAmount {part : Option Text} (writes : Writes part amount)
    (small : amount ≤ maxSafeInteger) : fieldAmount table part = .ok amount := by
  rcases writes with ⟨rfl, rfl⟩ | rfl
  · rfl
  · have short : (digitPoints (digitsOf amount)).length ≤ maxStrDigits := by
      rw [length_digitPoints]
      refine le_trans ((length_digitsOf_le (by decide)).mpr (lt_of_le_of_lt small ?_))
        (show 16 ≤ maxStrDigits by decide)
      decide
    have digits : (digitPoints (digitsOf amount)).filterMap table.value = digitsOf amount := by
      rw [digitPoints, List.filterMap_map]
      have own : ∀ digit ∈ digitsOf amount,
          (table.value ∘ fun digit => '0'.toNat + digit) digit = some digit :=
        fun digit member => value_digit (lt_of_mem_digitsOf member)
      rw [List.filterMap_congr own, List.filterMap_some]
    rw [Payments.fieldAmount, if_pos short, digits, numberOf_digitsOf]

theorem ends_unit (letter : '9'.toNat < unit.toNat) (ascii : unit.toNat < 128) :
    isDecimal table unit.toNat = false := by
  rw [isDecimal_ascii ascii]
  exact decide_eq_false fun range => absurd range.2 (not_le.mpr letter)

theorem head_spelled {part : Option Text} (isPart : Part table unit part) (rest : Text) :
    part = none ∨
      (spelled unit part ++ rest).head?.any (isDecimal table) = true := by
  cases part with
  | none => exact .inl rfl
  | some digits =>
    obtain ⟨filled, all⟩ := isPart.digits digits rfl
    obtain ⟨first, more, rfl⟩ := List.exists_cons_of_ne_nil filled
    exact .inr (all first List.mem_cons_self)

theorem atEnd_of_head (head : text.head?.any (isDecimal table) = true) :
    atEnd text = false := by
  cases text with
  | nil => cases head
  | cons first rest =>
    have digit : isDecimal table first = true := head
    have differs : first ≠ '\n'.toNat := by
      intro isBreak
      rw [isBreak, isDecimal_ascii (by decide)] at digit
      exact absurd digit (by decide)
    have long : first :: rest ≠ ['\n'.toNat] := fun same => differs (List.cons.inj same).1
    rw [atEnd, decide_eq_false (List.cons_ne_nil first rest), decide_eq_false long]
    rfl

section Texts

variable {days hours minutes seconds : Option Text} {dayCount hourCount minuteCount secondCount : ℕ}
  (writesDays : Writes days dayCount) (writesHours : Writes hours hourCount)
  (writesMinutes : Writes minutes minuteCount) (writesSeconds : Writes seconds secondCount)

include writesHours writesMinutes writesSeconds in
/-- The parts behind the time marker are read back, and nothing is left. -/
theorem time_read :
    optionalPart table 'H' (spelled 'H' hours ++ (spelled 'M' minutes ++ spelled 'S' seconds)) =
        (hours, spelled 'M' minutes ++ spelled 'S' seconds) ∧
      optionalPart table 'M' (spelled 'M' minutes ++ spelled 'S' seconds) =
        (minutes, spelled 'S' seconds) ∧
      optionalPart table 'S' (spelled 'S' seconds) = (seconds, []) := by
  have hour : Part table 'H' hours := writesHours.part (ends_unit (by decide) (by decide))
  have minute : Part table 'M' minutes := writesMinutes.part (ends_unit (by decide) (by decide))
  have second : Part table 'S' seconds := writesSeconds.part (ends_unit (by decide) (by decide))
  have unread : ∀ unit : Char, 'S'.toNat ≠ unit.toNat →
      Unread table unit (spelled 'S' seconds) := by
    intro unit differs
    have read := unread_other second differs (unread_nil unit)
    rwa [List.append_nil] at read
  refine ⟨optionalPart_spelled hour ?_, optionalPart_spelled minute ?_, ?_⟩
  · exact unread_other minute (by decide) (unread 'H' (by decide))
  · exact unread 'M' (by decide)
  · have read := optionalPart_spelled second (unread_nil 'S')
    rwa [List.append_nil] at read

include writesDays in
/-- The days are read back in front of the time marker, by the pattern of any calendar unit none
are. -/
theorem days_read {tail : Text} (marked : tail = [] ∨ ∃ rest, tail = 'T'.toNat :: rest) :
    optionalPart table unit (spelled 'D' days ++ tail) =
      if 'D'.toNat = unit.toNat then (days, tail) else (none, spelled 'D' days ++ tail) := by
  have day : Part table 'D' days := writesDays.part (ends_unit (by decide) (by decide))
  have unread : Unread table unit tail := by
    rcases marked with rfl | ⟨rest, rfl⟩
    · exact unread_nil unit
    · exact unread_mark rest (ends_unit (by decide) (by decide))
  split
  next same =>
    have isDay : 'D' = unit := Char.toNat_inj.mp same
    subst isDay
    exact optionalPart_spelled day unread
  next differs => exact unread_other day differs unread

include writesDays writesHours writesMinutes writesSeconds

theorem fixedDuration_durationText :
    fixedDuration table (durationText days hours minutes seconds) =
      some ⟨none, days, hours, minutes, seconds⟩ := by
  obtain ⟨hour, minute, second⟩ :
      optionalPart table 'H' _ = _ ∧ optionalPart table 'M' _ = _ ∧ optionalPart table 'S' _ = _ :=
    time_read writesHours writesMinutes writesSeconds
  have week : ∀ tail : Text, tail = [] ∨ (∃ rest, tail = 'T'.toNat :: rest) →
      optionalPart table 'W' (spelled 'D' days ++ tail) = (none, spelled 'D' days ++ tail) := by
    intro tail marked
    rw [days_read writesDays marked, if_neg (by decide)]
  have day : ∀ tail : Text, tail = [] ∨ (∃ rest, tail = 'T'.toNat :: rest) →
      optionalPart table 'D' (spelled 'D' days ++ tail) = (days, tail) := by
    intro tail marked
    rw [days_read writesDays marked, if_pos rfl]
  by_cases untimed : hours = none ∧ minutes = none ∧ seconds = none
  · obtain ⟨rfl, rfl, rfl⟩ := untimed
    rw [durationText, if_pos ⟨rfl, rfl, rfl⟩]
    simp only [fixedDuration, week [] (.inl rfl), day [] (.inl rfl), if_true]
  · rw [durationText, if_neg untimed]
    simp only [fixedDuration, week _ (.inr ⟨_, rfl⟩), day _ (.inr ⟨_, rfl⟩), hour, minute, second,
      if_true]

theorem wireDuration_durationText
    (filled : days ≠ none ∨ hours ≠ none ∨ minutes ≠ none ∨ seconds ≠ none) :
    wireDuration table (durationText days hours minutes seconds) = true := by
  obtain ⟨hour, minute, second⟩ :
      optionalPart table 'H' _ = _ ∧ optionalPart table 'M' _ = _ ∧ optionalPart table 'S' _ = _ :=
    time_read writesHours writesMinutes writesSeconds
  have calendar : ∀ tail : Text, tail = [] ∨ (∃ rest, tail = 'T'.toNat :: rest) →
      (optionalPart table 'D' (optionalPart table 'W' (optionalPart table 'M'
        (optionalPart table 'Y' (spelled 'D' days ++ tail)).2).2).2).2 = tail := by
    intro tail marked
    rw [days_read writesDays marked, if_neg (by decide), days_read writesDays marked,
      if_neg (by decide), days_read writesDays marked, if_neg (by decide),
      days_read writesDays marked, if_pos rfl]
  have day : Part table 'D' days := writesDays.part (ends_unit (by decide) (by decide))
  by_cases untimed : hours = none ∧ minutes = none ∧ seconds = none
  · rw [durationText, if_pos untimed]
    have begun := (head_spelled day []).resolve_left (filled.resolve_right (by simp [untimed]))
    simp only [wireDuration, calendar [] (.inl rfl), atEnd_of_head begun]
    rfl
  · have hourPart : Part table 'H' hours :=
      writesHours.part (ends_unit (by decide) (by decide))
    have minutePart : Part table 'M' minutes :=
      writesMinutes.part (ends_unit (by decide) (by decide))
    have secondPart : Part table 'S' seconds :=
      writesSeconds.part (ends_unit (by decide) (by decide))
    have begun : (spelled 'H' hours ++ (spelled 'M' minutes ++ spelled 'S' seconds)).head?.any
        (isDecimal table) = true := by
      rcases head_spelled hourPart (spelled 'M' minutes ++ spelled 'S' seconds) with rfl | begun
      · rcases head_spelled minutePart (spelled 'S' seconds) with rfl | begun
        · rcases head_spelled secondPart [] with rfl | begun
          · exact absurd ⟨rfl, rfl, rfl⟩ untimed
          · rwa [List.append_nil] at begun
        · exact begun
      · exact begun
    have open' : atEnd (spelled 'D' days ++ 'T'.toNat ::
        (spelled 'H' hours ++ (spelled 'M' minutes ++ spelled 'S' seconds))) = false := by
      rcases head_spelled day ('T'.toNat :: (spelled 'H' hours ++
        (spelled 'M' minutes ++ spelled 'S' seconds))) with rfl | begun
      · rfl
      · exact atEnd_of_head begun
    rw [durationText, if_neg untimed]
    simp only [wireDuration, calendar _ (.inr ⟨_, rfl⟩), hour, minute, second, begun, open', if_true]
    rfl

end Texts

def written (amount : ℕ) : Option Text :=
  if amount = 0 then none else some (digitPoints (digitsOf amount))

theorem writes_written (amount : ℕ) : Writes (written amount) amount := by
  unfold Writes written
  split
  next zero => exact .inl ⟨rfl, zero⟩
  next => exact .inr rfl

theorem spelled_written (amount : ℕ) (unit : Char) :
    spelled unit (written amount) = if amount = 0 then [] else amountText amount unit := by
  unfold written
  split
  · rfl
  · rfl

theorem written_eq_none : written amount = none ↔ amount = 0 := by
  simp [written]

theorem spelled_eq_nil {part : Option Text} :
    spelled unit part = [] ↔ part = none := by
  cases part with
  | none => exact iff_of_true rfl rfl
  | some digits => simp [spelled]

/-- A duration is formatted with the parts of its days, hours, minutes and seconds. -/
theorem formatDuration_eq {duration : ℕ} (safe : duration ≤ maxSafeInteger) :
    ∃ days hours minutes seconds,
      formatDuration duration = .ok (durationText days hours minutes seconds) ∧
      Writes days (duration / 86400) ∧ Writes hours (duration % 86400 / 3600) ∧
      Writes minutes (duration % 86400 % 3600 / 60) ∧
      Writes seconds (duration % 86400 % 3600 % 60) ∧
      (days ≠ none ∨ hours ≠ none ∨ minutes ≠ none ∨ seconds ≠ none) := by
  have inside : ¬((duration : ℤ) < 0 ∨ (maxSafeInteger : ℤ) < duration) := by omega
  rw [formatDuration, if_neg inside, Int.toNat_natCast]
  dsimp only
  generalize duration / 86400 = days
  generalize duration % 86400 / 3600 = hours
  generalize duration % 86400 % 3600 / 60 = minutes
  generalize duration % 86400 % 3600 % 60 = seconds
  simp only [List.flatMap_cons, List.flatMap_nil, List.append_nil, ← spelled_written,
    List.append_eq_nil_iff, spelled_eq_nil]
  by_cases zero : written days = none ∧ written hours = none ∧ written minutes = none ∧
      written seconds = none
  · rw [if_pos zero]
    simp only [written_eq_none] at zero
    obtain ⟨rfl, rfl, rfl, rfl⟩ := zero
    exact ⟨none, none, none, some (digitPoints (digitsOf 0)), rfl, .inl ⟨rfl, rfl⟩,
      .inl ⟨rfl, rfl⟩, .inl ⟨rfl, rfl⟩, .inr rfl, .inr (.inr (.inr (Option.some_ne_none _)))⟩
  · rw [if_neg zero]
    refine ⟨written days, written hours, written minutes, written seconds, ?_, writes_written _,
      writes_written _, writes_written _, writes_written _, by tauto⟩
    simp only [durationText, List.append_eq_nil_iff, spelled_eq_nil]

/-! ## The round trip -/

theorem durationSeconds_formatted {duration : ℕ} (safe : duration ≤ maxSafeInteger) :
    ∃ text, formatDuration duration = .ok text ∧ durationSeconds table text = .ok duration ∧
      wireDuration table text = true := by
  obtain ⟨days, hours, minutes, seconds, formatted, writesDays, writesHours, writesMinutes,
    writesSeconds, filled⟩ := formatDuration_eq safe
  refine ⟨_, formatted, ?_, wireDuration_durationText writesDays writesHours writesMinutes
    writesSeconds filled⟩
  have some' : (⟨none, days, hours, minutes, seconds⟩ : DurationFields) ≠
      ⟨none, none, none, none, none⟩ := by
    intro same
    cases same
    simp at filled
  have total : 0 * 7 * 24 * 60 * 60 + duration / 86400 * 24 * 60 * 60 +
      duration % 86400 / 3600 * 60 * 60 + duration % 86400 % 3600 / 60 * 60 +
        duration % 86400 % 3600 % 60 = duration := by
    omega
  unfold durationSeconds
  rw [fixedDuration_durationText writesDays writesHours writesMinutes writesSeconds]
  dsimp only
  rw [if_neg some', writesDays.fieldAmount (by omega), writesHours.fieldAmount (by omega),
    writesMinutes.fieldAmount (by omega), writesSeconds.fieldAmount (by omega)]
  change (if maxSafeInteger < 0 * 7 * 24 * 60 * 60 + _ + _ + _ + _ then _ else _) = _
  rw [total, if_neg (not_lt.mpr safe)]

theorem durationSeconds_le {value : ℕ} (accepted : durationSeconds table text = .ok value) :
    value ≤ maxSafeInteger := by
  unfold durationSeconds at accepted
  split at accepted
  · cases accepted
  · obtain ⟨-, accepted⟩ := refuse_eq_ok.mp accepted
    obtain ⟨weeks, -, accepted⟩ := bind_eq_ok.mp accepted
    obtain ⟨days, -, accepted⟩ := bind_eq_ok.mp accepted
    obtain ⟨hours, -, accepted⟩ := bind_eq_ok.mp accepted
    obtain ⟨minutes, -, accepted⟩ := bind_eq_ok.mp accepted
    obtain ⟨seconds, -, accepted⟩ := bind_eq_ok.mp accepted
    dsimp only at accepted
    obtain ⟨inside, accepted⟩ := refuse_eq_ok.mp accepted
    cases accepted
    exact not_lt.mp inside

structure RoundTrip (table : DigitTable) : Prop where
  /-- A duration in the range is formatted as a text that is read as it. -/
  formats : ∀ duration : ℤ, 0 ≤ duration → duration ≤ maxSafeInteger → ∃ text seconds,
    formatDuration duration = .ok text ∧ durationSeconds table text = .ok seconds ∧
      (seconds : ℤ) = duration
  /-- What is read of any text is formatted as a text that is read the same, and formatted the
  same from then on. -/
  stable : ∀ text seconds, durationSeconds table text = .ok seconds → ∃ formatted,
    formatDuration seconds = .ok formatted ∧ durationSeconds table formatted = .ok seconds
  idempotent : ∀ text seconds formatted again, durationSeconds table text = .ok seconds →
    formatDuration seconds = .ok formatted → durationSeconds table formatted = .ok again →
    formatDuration again = .ok formatted
  /-- What is formatted is on the wire what the model admits. -/
  wire : ∀ duration text, formatDuration duration = .ok text → wireDuration table text = true
  /-- Texts of different values never format alike. -/
  apart : ∀ first second firstSeconds secondSeconds,
    durationSeconds table first = .ok firstSeconds →
    durationSeconds table second = .ok secondSeconds → firstSeconds ≠ secondSeconds →
    formatDuration firstSeconds ≠ formatDuration secondSeconds

theorem safe_of_formatted {duration : ℤ} (formatted : formatDuration duration = .ok text) :
    ∃ seconds : ℕ, seconds ≤ maxSafeInteger ∧ duration = seconds := by
  unfold formatDuration at formatted
  obtain ⟨inside, formatted⟩ := refuse_eq_ok.mp formatted
  exact ⟨duration.toNat, by omega, by omega⟩

/-- **Durations round-trip**, whatever the decimal digits of other scripts are. -/
theorem durations_round_trip (table : DigitTable) : RoundTrip table := by
  have read : ∀ {text seconds formatted}, durationSeconds table text = .ok seconds →
      formatDuration seconds = .ok formatted → durationSeconds table formatted = .ok seconds := by
    intro text seconds formatted accepted written
    obtain ⟨own, isOwn, reads, -⟩ := durationSeconds_formatted (durationSeconds_le accepted)
    rw [isOwn] at written
    cases written
    exact reads
  constructor
  · intro duration nonneg safe
    obtain ⟨seconds, rfl⟩ := Int.eq_ofNat_of_zero_le nonneg
    obtain ⟨text, formatted, reads, -⟩ := @durationSeconds_formatted table _
      (Int.ofNat_le.mp safe)
    exact ⟨text, seconds, formatted, reads, rfl⟩
  · intro text seconds accepted
    obtain ⟨formatted, isFormatted, reads, -⟩ :=
      durationSeconds_formatted (durationSeconds_le accepted)
    exact ⟨formatted, isFormatted, reads⟩
  · intro text seconds formatted again accepted isFormatted reads
    have same := (read accepted isFormatted).symm.trans reads
    cases same
    exact isFormatted
  · intro duration text formatted
    obtain ⟨seconds, safe, rfl⟩ := safe_of_formatted formatted
    obtain ⟨own, isOwn, -, wire⟩ := durationSeconds_formatted safe
    rw [isOwn] at formatted
    cases formatted
    exact wire
  · intro first second firstSeconds secondSeconds isFirst isSecond differ same
    obtain ⟨text, formatted, reads, -⟩ := durationSeconds_formatted (durationSeconds_le isFirst)
    have alike := read isSecond (same ▸ formatted)
    rw [reads] at alike
    cases alike
    exact differ rfl

end ComputeMarket.Payments
