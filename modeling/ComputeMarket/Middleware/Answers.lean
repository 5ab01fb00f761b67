import Mathlib.Data.Rat.Floor

/-!
# Answers of the credits service

What the three clients of the middleware make of an answer to `verify` and to `consume`: an
HTTP status and a JSON body. Each reads the body with its own language's truthiness, text and
number conversions. How a library reads a number out of a value is a parameter
(`Conversions`); no decision of a gate depends on the number, only on whether Python's `int`
raises.

`Typed` describes the answers all three read alike. The service authenticates over HTTP; the
signed envelope, which only the Python client has, is left out.
-/

namespace ComputeMarket.Middleware

/-! ## Values -/

inductive Json
  | null
  | bool (value : Bool)
  | number (value : ℚ)
  | text (value : String)
  | list (items : List Json)
  | object (items : List (String × Json))

namespace Json

/-- The value of a name; an absent name reads as null in every one of the clients. -/
def field (items : List (String × Json)) (name : String) : Json :=
  (items.lookup name).getD .null

def isText (expected : String) : Json → Bool
  | .text value => value = expected
  | _ => false

/-- `bool(value)` in Python. -/
def truthy : Json → Bool
  | .null => false
  | .bool value => value
  | .number value => value ≠ 0
  | .text value => value ≠ ""
  | .list items => !items.isEmpty
  | .object items => !items.isEmpty

/-- `Boolean(value)` in TypeScript: a list or an object is never false. -/
def boolean : Json → Bool
  | .null => false
  | .bool value => value
  | .number value => value ≠ 0
  | .text value => value ≠ ""
  | .list _ | .object _ => true

/-- `value.as_bool().unwrap_or(false)` in Rust. -/
def asBool : Json → Bool
  | .bool value => value
  | _ => false

/-- `first or second`. -/
def or (first second : Json) : Json := if first.truthy then first else second

/-- `first ?? second`. -/
def coalesce (first second : Json) : Json :=
  match first with
  | .null => second
  | value => value

/-- `as_string(first).or_else(second)`: a value that is no text is as if it were absent. -/
def asText (first second : Json) : Json :=
  match first with
  | .text value => .text value
  | _ => second

end Json

/-- What a library makes of a value that stands where a number is expected. -/
structure Conversions where
  /-- Python's `int` of a text, where it raises none. -/
  int : String → Option ℤ
  /-- TypeScript's `Number` of a value, where that is finite. -/
  number : Json → Option ℚ

def Conversions.none : Conversions := ⟨fun _ => .none, fun _ => .none⟩

def toward (value : ℚ) : ℤ := if 0 ≤ value then ⌊value⌋ else ⌈value⌉

inductive Raised
  | decode
  | attribute
  | value
  | type
  | duration
  | key

/-- `int(value or 0)`. -/
def Python.toInt (conversions : Conversions) (value : Json) : Except Raised ℤ :=
  if !value.truthy then .ok 0
  else
    match value with
    | .bool _ => .ok 1
    | .number value => .ok (toward value)
    | .text value => ((conversions.int value).map Except.ok).getD (.error .value)
    | _ => .error .type

def TypeScript.toInt (conversions : Conversions) (value : Json) : ℤ :=
  ((conversions.number value).map toward).getD 0

/-- `as_i64`: a number beyond 64 bits is cut to the nearest. -/
def Rust.asI64 : Json → ℤ
  | .number value => max (-2 ^ 63) (min (2 ^ 63 - 1) (toward value))
  | _ => 0

structure Answer where
  status : ℕ
  body : Option Json

structure VerifyResult where
  valid : Bool
  status : Json
  balance : ℤ

/-- `ConsumeResult`. The reason is null where the call succeeded. -/
structure ConsumeResult where
  ok : Bool
  balance : ℤ
  consumed : ℤ
  duplicate : Bool
  reason : Json

def keyNotFound : String := "key_not_found"

def keyRevoked : String := "key_revoked"

def insufficientCredits : String := "insufficient_credits"

/-- What an answer with another status than 200 is read as: not valid. -/
def VerifyResult.unanswered : VerifyResult := ⟨false, .null, 0⟩

def Python.verify (conversions : Conversions) (answer : Answer) : Except Raised VerifyResult :=
  if answer.status ≠ 200 then .ok .unanswered
  else
    match answer.body with
    | none => .error .decode
    | some (.object items) => do
        let balance ← Python.toInt conversions (Json.field items "balance")
        .ok ⟨(Json.field items "valid").truthy, Json.field items "status", balance⟩
    | some _ => .error .attribute

/-- `TokensClient.consume`, of the items of the body. -/
def Python.consumeItems (conversions : Conversions) (status : ℕ)
    (items : List (String × Json)) : Except Raised ConsumeResult :=
  if status = 200 && (Json.field items "ok").truthy then do
    let balance ← Python.toInt conversions (Json.field items "balance")
    let consumed ← Python.toInt conversions (Json.field items "consumed")
    .ok ⟨true, balance, consumed, (Json.field items "duplicate").truthy, .null⟩
  else do
    let reason := (Json.field items "error").or
      ((Json.field items "reason").or (.text insufficientCredits))
    let balance ← Python.toInt conversions (Json.field items "balance")
    .ok ⟨false, balance, 0, false, reason⟩

def Python.consume (conversions : Conversions) (answer : Answer) :
    Except Raised ConsumeResult :=
  match answer.body with
  | none => Python.consumeItems conversions answer.status []
  | some (.object items) => Python.consumeItems conversions answer.status items
  | some _ => .error .attribute

/-- The items that a client which reads a body of another kind as empty finds in it. -/
def Json.items : Json → List (String × Json)
  | .object items => items
  | _ => []

/-- `TokensClient.json`, and the reads of its properties: those of null raise. -/
def TypeScript.items (answer : Answer) : Except Raised (List (String × Json)) :=
  match answer.body with
  | none => .ok []
  | some .null => .error .type
  | some value => .ok value.items

def TypeScript.verify (conversions : Conversions) (answer : Answer) :
    Except Raised VerifyResult :=
  if answer.status ≠ 200 then .ok .unanswered
  else do
    let items ← TypeScript.items answer
    .ok ⟨(Json.field items "valid").boolean, Json.field items "status",
      TypeScript.toInt conversions (Json.field items "balance")⟩

def TypeScript.consume (conversions : Conversions) (answer : Answer) :
    Except Raised ConsumeResult := do
  let items ← TypeScript.items answer
  let balance := TypeScript.toInt conversions (Json.field items "balance")
  if answer.status = 200 && (Json.field items "ok").boolean then
    .ok ⟨true, balance, TypeScript.toInt conversions (Json.field items "consumed"),
      (Json.field items "duplicate").boolean, .null⟩
  else
    .ok ⟨false, balance, 0, false, (Json.field items "error").coalesce
      ((Json.field items "reason").coalesce (.text insufficientCredits))⟩

def Rust.items (answer : Answer) : List (String × Json) :=
  (answer.body.map Json.items).getD []

/-- `TokensClient::verify`. -/
def Rust.verify (answer : Answer) : VerifyResult :=
  if answer.status = 200 then
    let items := Rust.items answer
    ⟨(Json.field items "valid").asBool, (Json.field items "status").asText .null,
      Rust.asI64 (Json.field items "balance")⟩
  else
    .unanswered

/-- `TokensClient::consume`. -/
def Rust.consume (answer : Answer) : ConsumeResult :=
  let items := Rust.items answer
  let balance := Rust.asI64 (Json.field items "balance")
  if answer.status = 200 && (Json.field items "ok").asBool then
    ⟨true, balance, Rust.asI64 (Json.field items "consumed"),
      (Json.field items "duplicate").asBool, .null⟩
  else
    ⟨false, balance, 0, false, (Json.field items "error").asText
      ((Json.field items "reason").asText (.text insufficientCredits))⟩

/-! ## What all three read alike -/

structure VerifyResult.Alike (first second : VerifyResult) : Prop where
  valid : first.valid = second.valid
  revoked : first.status.isText "revoked" = second.status.isText "revoked"

structure ConsumeResult.Alike (first second : ConsumeResult) : Prop where
  ok : first.ok = second.ok
  revoked : first.reason.isText keyRevoked = second.reason.isText keyRevoked
  notFound : first.reason.isText keyNotFound = second.reason.isText keyNotFound

def Json.Plain : Json → Prop
  | .null | .bool _ => True
  | .number value => value = 0
  | .text value => value = ""
  | .list _ | .object _ => False

/-- A value Python's `int` reads. -/
def Json.Counts (conversions : Conversions) : Json → Prop
  | .null | .bool _ | .number _ => True
  | .text value => value = "" ∨ (conversions.int value).isSome = true
  | .list items => items = []
  | .object items => items = []

/-- The reasons every client falls back to alike: no `error` or one that is a text, unless the
`reason` behind it is one a gate knows. -/
def Reasoned (error reason : Json) : Prop :=
  (match error with
    | .null => True
    | .text value => value ≠ ""
    | _ => False) ∨
  (reason.isText keyRevoked = false ∧ reason.isText keyNotFound = false)

/-- The answers to `verify` all three clients read alike. -/
def Answer.VerifyTyped (conversions : Conversions) (answer : Answer) : Prop :=
  answer.status = 200 → ∃ items, answer.body = some (.object items) ∧
    (Json.field items "valid").Plain ∧ (Json.field items "balance").Counts conversions

/-- The answers to `consume` all three clients read alike. -/
def Answer.ConsumeTyped (conversions : Conversions) (answer : Answer) : Prop :=
  answer.body = none ∨ ∃ items, answer.body = some (.object items) ∧
    (Json.field items "balance").Counts conversions ∧
    (answer.status = 200 → (Json.field items "ok").Plain) ∧
    (answer.status = 200 → (Json.field items "ok").truthy = true →
      (Json.field items "consumed").Counts conversions) ∧
    (¬(answer.status = 200 ∧ (Json.field items "ok").truthy = true) →
      Reasoned (Json.field items "error") (Json.field items "reason"))

namespace Json

variable {value : Json}

@[simp] theorem isText_null (expected : String) : Json.null.isText expected = false := rfl

@[simp] theorem isText_text (value expected : String) :
    (Json.text value).isText expected = decide (value = expected) := rfl

theorem Plain.boolean (plain : value.Plain) : value.boolean = value.truthy := by
  cases value with
  | null | bool | number | text => rfl
  | list | object => exact plain.elim

theorem Plain.asBool (plain : value.Plain) : value.asBool = value.truthy := by
  cases value with
  | null | bool => rfl
  | number value => simp [Json.asBool, truthy, show value = 0 from plain]
  | text value => simp [Json.asBool, truthy, show value = "" from plain]
  | list | object => exact plain.elim

theorem Counts.toInt {conversions : Conversions} (counts : value.Counts conversions) :
    ∃ n, Python.toInt conversions value = .ok n := by
  unfold Python.toInt
  by_cases truthy : value.truthy = true
  · simp only [truthy, Bool.not_true, Bool.false_eq_true, if_false]
    cases value with
    | null => cases truthy
    | bool => exact ⟨1, rfl⟩
    | number value => exact ⟨toward value, rfl⟩
    | text value =>
      rcases counts with isEmpty | reads
      · subst isEmpty
        cases truthy
      · obtain ⟨n, isNumber⟩ := Option.isSome_iff_exists.mp reads
        exact ⟨n, by simp only [isNumber]; rfl⟩
    | list items =>
      rw [show items = [] from counts] at truthy
      cases truthy
    | object items =>
      rw [show items = [] from counts] at truthy
      cases truthy
  · rw [Bool.not_eq_true] at truthy
    exact ⟨0, by simp [truthy]⟩

end Json

variable {first second : Json}

def Json.Unknown (reason : Json) : Prop :=
  reason.isText keyRevoked = false ∧ reason.isText keyNotFound = false

theorem unknown_insufficient : (Json.text insufficientCredits).Unknown := by
  constructor <;> decide

theorem Json.or_unknown (one : first.truthy = true → first.Unknown) (other : second.Unknown) :
    (first.or second).Unknown := by
  unfold Json.or
  split
  · next truthy => exact one truthy
  · exact other

theorem Json.coalesce_unknown (one : first ≠ .null → first.Unknown) (other : second.Unknown) :
    (first.coalesce second).Unknown := by
  cases first with
  | null => exact other
  | bool | number | text | list | object => exact one nofun

theorem Json.asText_unknown (one : first.Unknown) (other : second.Unknown) :
    (first.asText second).Unknown := by
  cases first with
  | text => exact one
  | null | bool | number | list | object => exact other

def SameReason (first second : Json) : Prop :=
  first.isText keyRevoked = second.isText keyRevoked ∧
    first.isText keyNotFound = second.isText keyNotFound

theorem SameReason.of_unknown (left : first.Unknown) (right : second.Unknown) :
    SameReason first second :=
  ⟨left.1.trans right.1.symm, left.2.trans right.2.symm⟩

theorem fallbacks_text {value : String} (filled : value ≠ "") (second third fourth : Json) :
    (Json.text value).or second = .text value ∧ (Json.text value).coalesce third = .text value ∧
      (Json.text value).asText fourth = .text value := by
  refine ⟨?_, rfl, rfl⟩
  rw [Json.or, if_pos]
  exact decide_eq_true filled

theorem Json.text_or_unknown (value : Json) :
    (∃ text, value = .text text ∧ text ≠ "") ∨
      value.Unknown ∧ ∀ text, value = .text text → text = "" := by
  cases value with
  | text value =>
    by_cases isEmpty : value = ""
    · subst isEmpty
      refine .inr ⟨⟨by decide, by decide⟩, fun text same => ?_⟩
      cases same
      rfl
    · exact .inl ⟨value, rfl, isEmpty⟩
  | null | bool | number | list | object => exact .inr ⟨⟨rfl, rfl⟩, nofun⟩

theorem fallbacks_unknown {error reason : Json} (errorUnknown : error.Unknown)
    (reasonUnknown : reason.Unknown) :
    (error.or (reason.or (.text insufficientCredits))).Unknown ∧
      (error.coalesce (reason.coalesce (.text insufficientCredits))).Unknown ∧
      (error.asText (reason.asText (.text insufficientCredits))).Unknown :=
  ⟨Json.or_unknown (fun _ => errorUnknown)
      (Json.or_unknown (fun _ => reasonUnknown) unknown_insufficient),
    Json.coalesce_unknown (fun _ => errorUnknown)
      (Json.coalesce_unknown (fun _ => reasonUnknown) unknown_insufficient),
    Json.asText_unknown errorUnknown (Json.asText_unknown reasonUnknown unknown_insufficient)⟩

theorem Reasoned.same {error reason : Json} (reasoned : Reasoned error reason) :
    SameReason (error.or (reason.or (.text insufficientCredits)))
        (error.coalesce (reason.coalesce (.text insufficientCredits))) ∧
      SameReason (error.or (reason.or (.text insufficientCredits)))
        (error.asText (reason.asText (.text insufficientCredits))) := by
  rcases error.text_or_unknown with ⟨value, rfl, filled⟩ | ⟨errorUnknown, noText⟩
  · obtain ⟨python, typescript, rust⟩ := fallbacks_text filled
      (reason.or (.text insufficientCredits)) (reason.coalesce (.text insufficientCredits))
      (reason.asText (.text insufficientCredits))
    rw [python, typescript, rust]
    exact ⟨⟨rfl, rfl⟩, ⟨rfl, rfl⟩⟩
  · rcases reason.text_or_unknown with ⟨value, rfl, filled⟩ | ⟨reasonUnknown, -⟩
    · rcases reasoned with absent | reasonUnknown
      · -- an `error` that no gate knows and that is no text is absent here
        have isNull : error = .null := by
          cases error with
          | null => rfl
          | text text => exact absurd (noText text rfl) absent
          | bool | number | list | object => exact absent.elim
        obtain ⟨python, typescript, rust⟩ := fallbacks_text filled
          (.text insufficientCredits) (.text insufficientCredits) (.text insufficientCredits)
        subst isNull
        have behindNull : ∀ second, Json.null.or second = second := fun _ => rfl
        rw [behindNull, python]
        change SameReason _ ((Json.text value).coalesce (.text insufficientCredits)) ∧
          SameReason _ ((Json.text value).asText (.text insufficientCredits))
        rw [typescript, rust]
        exact ⟨⟨rfl, rfl⟩, ⟨rfl, rfl⟩⟩
      · obtain ⟨python, typescript, rust⟩ := fallbacks_unknown errorUnknown reasonUnknown
        exact ⟨.of_unknown python typescript, .of_unknown python rust⟩
    · obtain ⟨python, typescript, rust⟩ := fallbacks_unknown errorUnknown reasonUnknown
      exact ⟨.of_unknown python typescript, .of_unknown python rust⟩

/-! ## The clients read a typed answer alike -/

theorem verify_alike {conversions : Conversions} {answer : Answer}
    (typed : answer.VerifyTyped conversions) :
    ∃ python typescript, Python.verify conversions answer = .ok python ∧
      TypeScript.verify conversions answer = .ok typescript ∧
      python.Alike typescript ∧ python.Alike (Rust.verify answer) := by
  by_cases answered : answer.status = 200
  · obtain ⟨items, body, valid, counts⟩ := typed answered
    obtain ⟨balance, read⟩ := counts.toInt
    have ofPython : Python.verify conversions answer =
        .ok ⟨(Json.field items "valid").truthy, Json.field items "status", balance⟩ := by
      simp [Python.verify, answered, body, read, bind, Except.bind]
    have ofTypescript : TypeScript.verify conversions answer =
        .ok ⟨(Json.field items "valid").boolean, Json.field items "status",
          TypeScript.toInt conversions (Json.field items "balance")⟩ := by
      simp [TypeScript.verify, TypeScript.items, answered, body, Json.items, bind, Except.bind]
    refine ⟨_, _, ofPython, ofTypescript, ⟨valid.boolean.symm, rfl⟩, ?_⟩
    rw [Rust.verify, if_pos answered]
    have found : Rust.items answer = items := by
      rw [Rust.items, body]
      rfl
    rw [found]
    refine ⟨valid.asBool.symm, ?_⟩
    change (Json.field items "status").isText "revoked" =
      ((Json.field items "status").asText .null).isText "revoked"
    cases Json.field items "status" <;> rfl
  · refine ⟨.unanswered, .unanswered, ?_, ?_, ⟨rfl, rfl⟩, ?_⟩
    · simp [Python.verify, answered]
    · simp [TypeScript.verify, answered]
    · rw [Rust.verify, if_neg answered]
      exact ⟨rfl, rfl⟩

theorem ConsumeResult.Alike.of_same {first second : ConsumeResult} (sameOk : first.ok = second.ok)
    (same : SameReason first.reason second.reason) : first.Alike second :=
  ⟨sameOk, same.1, same.2⟩

theorem consumeItems_alike {conversions : Conversions} {answer : Answer}
    {items : List (String × Json)} (python : Python.consume conversions answer =
      Python.consumeItems conversions answer.status items)
    (typescript : TypeScript.items answer = .ok items) (rust : Rust.items answer = items)
    (counts : (Json.field items "balance").Counts conversions)
    (ok : answer.status = 200 → (Json.field items "ok").Plain)
    (consumed : answer.status = 200 → (Json.field items "ok").truthy = true →
      (Json.field items "consumed").Counts conversions)
    (reasoned : ¬(answer.status = 200 ∧ (Json.field items "ok").truthy = true) →
      Reasoned (Json.field items "error") (Json.field items "reason")) :
    ∃ python typescript, Python.consume conversions answer = .ok python ∧
      TypeScript.consume conversions answer = .ok typescript ∧
      python.Alike typescript ∧ python.Alike (Rust.consume answer) := by
  obtain ⟨balance, readBalance⟩ := counts.toInt
  rw [python]
  have unfoldedRust : Rust.consume answer =
      if answer.status = 200 && (Json.field items "ok").asBool then
        ⟨true, Rust.asI64 (Json.field items "balance"), Rust.asI64 (Json.field items "consumed"),
          (Json.field items "duplicate").asBool, .null⟩
      else
        ⟨false, Rust.asI64 (Json.field items "balance"), 0, false,
          (Json.field items "error").asText
            ((Json.field items "reason").asText (.text insufficientCredits))⟩ := by
    simp only [Rust.consume, rust]
  rw [unfoldedRust]
  by_cases succeeded : answer.status = 200 ∧ (Json.field items "ok").truthy = true
  · obtain ⟨answered, isOk⟩ := succeeded
    obtain ⟨amount, readAmount⟩ := (consumed answered isOk).toInt
    have boolean := (ok answered).boolean.trans isOk
    have asBool := (ok answered).asBool.trans isOk
    refine ⟨⟨true, balance, amount, (Json.field items "duplicate").truthy, .null⟩,
      ⟨true, TypeScript.toInt conversions (Json.field items "balance"),
        TypeScript.toInt conversions (Json.field items "consumed"),
        (Json.field items "duplicate").boolean, .null⟩, ?_, ?_, ⟨rfl, rfl, rfl⟩, ?_⟩
    · simp [Python.consumeItems, answered, isOk, readBalance, readAmount, bind, Except.bind]
    · simp [TypeScript.consume, typescript, answered, boolean, bind, Except.bind]
    · rw [answered, asBool]
      exact ⟨rfl, rfl, rfl⟩
  · have ofTypescript : (decide (answer.status = 200) && (Json.field items "ok").boolean) =
        false := by
      by_cases answered : answer.status = 200
      · rw [(ok answered).boolean]
        simpa [answered] using succeeded
      · simp [answered]
    have ofRust : (decide (answer.status = 200) && (Json.field items "ok").asBool) = false := by
      by_cases answered : answer.status = 200
      · rw [(ok answered).asBool]
        simpa [answered] using succeeded
      · simp [answered]
    have ofPython : (decide (answer.status = 200) && (Json.field items "ok").truthy) = false := by
      simpa using succeeded
    obtain ⟨sameTypescript, sameRust⟩ := (reasoned succeeded).same
    refine ⟨⟨false, balance, 0, false, (Json.field items "error").or
        ((Json.field items "reason").or (.text insufficientCredits))⟩,
      ⟨false, TypeScript.toInt conversions (Json.field items "balance"), 0, false,
        (Json.field items "error").coalesce
          ((Json.field items "reason").coalesce (.text insufficientCredits))⟩, ?_, ?_, ?_, ?_⟩
    · simp [Python.consumeItems, ofPython, readBalance, bind, Except.bind]
    · simp [TypeScript.consume, typescript, ofTypescript, bind, Except.bind]
    · exact .of_same rfl sameTypescript
    · rw [ofRust]
      exact .of_same rfl sameRust

theorem consume_alike {conversions : Conversions} {answer : Answer}
    (typed : answer.ConsumeTyped conversions) :
    ∃ python typescript, Python.consume conversions answer = .ok python ∧
      TypeScript.consume conversions answer = .ok typescript ∧
      python.Alike typescript ∧ python.Alike (Rust.consume answer) := by
  rcases typed with isEmpty | ⟨items, body, counts, ok, consumed, reasoned⟩
  · refine @consumeItems_alike conversions answer [] ?_ ?_ ?_ trivial (fun _ => trivial)
      (fun _ => nofun) (fun _ => .inl trivial)
    · simp only [Python.consume, isEmpty]
    · simp only [TypeScript.items, isEmpty]
    · simp only [Rust.items, isEmpty]
      rfl
  · refine consumeItems_alike ?_ ?_ ?_ counts ok consumed reasoned
    · simp only [Python.consume, body]
    · simp only [TypeScript.items, body, Json.items]
    · simp only [Rust.items, body]
      rfl

end ComputeMarket.Middleware
