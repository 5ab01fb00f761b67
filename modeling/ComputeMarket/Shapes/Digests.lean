import ComputeMarket.Shapes.Splits

/-!
# Digests of base shapes

An entry is a document as a JSON reader returns it: no mapping repeats a key, and every integer is
one that the language writes. What such an entry leaves as its base shape has a canonical text, and
has a digest unless a name or a text value in it holds a lone surrogate. Two base shapes of one text
are one.
-/

namespace ComputeMarket.Shapes

open Texts

/-! ## Floating-point numbers -/

variable {text : Text}

/-- A code point of a finite number's text. -/
def floatPoint (point : ℕ) : Bool :=
  isDigit point || point = '-'.toNat || point = '+'.toNat || point = '.'.toNat || point = 'e'.toNat

/-- A code point that tells the text of a number from that of an integer. -/
def floatMark (point : ℕ) : Bool := point = '.'.toNat || point = 'e'.toNat

/-- A floating-point number. A finite one is told by the shortest text that reads back as it, which
has a fraction or an exponent. -/
inductive FloatNumber
  | finite (text : Text) (clear : text.all floatPoint = true) (marked : text.any floatMark = true)
  | infinity (negative : Bool)
  | nan

instance : Floats FloatNumber where
  isFinite
    | .finite .. => true
    | .infinity _ | .nan => false
  text
    | .finite text _ _ => text
    | .infinity negative => points (if negative then "-Infinity" else "Infinity")
    | .nan => points "NaN"

def scalarCode : Document FloatNumber → Text
  | .float x => Floats.text x
  | value => plainCode value

variable {value : Document FloatNumber}

theorem scalar_cases (scalar : isScalar value = true) :
    Plain value ∧ scalarCode value = plainCode value ∨
      ∃ text clear marked, value = .float (.finite text clear marked) := by
  cases value with
  | bool b => exact .inl ⟨trivial, rfl⟩
  | int n => exact .inl ⟨trivial, rfl⟩
  | str text => exact .inl ⟨trivial, rfl⟩
  | float x =>
    cases x with
    | finite text clear marked => exact .inr ⟨text, clear, marked, rfl⟩
    | infinity negative => cases scalar
    | nan => cases scalar
  | null => cases scalar
  | list items => cases scalar
  | obj members => cases scalar

theorem floatText_ne_plainCode (clear : text.all floatPoint = true)
    (marked : text.any floatMark = true) (plain : Plain value) (other : ¬IsText value) :
    text ≠ plainCode value := by
  rintro rfl
  cases value with
  | bool b => cases b <;> simp [plainCode, points, floatPoint, isDigit] at clear
  | str text => exact other ⟨text, rfl⟩
  | int n =>
    obtain ⟨point, inside, isMark⟩ := List.any_eq_true.mp marked
    unfold floatMark at isMark
    rw [Bool.or_eq_true, decide_eq_true_eq, decide_eq_true_eq] at isMark
    rcases mem_intCode inside with rfl | digit
    · revert isMark
      decide
    · rcases isMark with rfl | rfl
      · cases digit
      · cases digit
  | _ => exact plain.elim

/-- **A scalar in front of a comma or a brace tells itself.** -/
theorem scalarCode_ended :
    EndedBy memberMarks {value : Document FloatNumber | isScalar value = true} scalarCode := by
  refine ended_of_literals (fun _ => rfl) ?_ ?_
  · intro value scalar other
    rcases scalar_cases scalar with ⟨plain, code⟩ | ⟨text, clear, marked, rfl⟩
    · rw [code]
      exact clear_of_not_text plain other
    · refine ⟨?_, fun point inside => ?_⟩
      · rintro (rfl : text = [])
        cases marked
      · have allowed := List.all_eq_true.mp clear point inside
        refine ⟨?_, ?_⟩
        · rintro rfl
          cases allowed
        · rintro (rfl | rfl)
          · cases allowed
          · cases allowed
  · rintro first ⟨scalar, other⟩ second ⟨scalar', other'⟩ same
    rcases scalar_cases scalar with ⟨plain, code⟩ | ⟨text, clear, marked, rfl⟩
    · rcases scalar_cases scalar' with ⟨plain', code'⟩ | ⟨text, clear, marked, rfl⟩
      · rw [code, code'] at same
        exact plainCode_injOn ⟨plain, other⟩ ⟨plain', other'⟩ same
      · rw [code] at same
        exact absurd same.symm (floatText_ne_plainCode clear marked plain other)
    · rcases scalar_cases scalar' with ⟨plain', code'⟩ | ⟨text', clear', marked', rfl⟩
      · rw [code'] at same
        exact absurd same (floatText_ne_plainCode clear marked plain' other')
      · obtain rfl : text = text' := same
        rfl

theorem scalarText_eq (scalar : isScalar value = true) (short : Short value) :
    scalarText value = some (scalarCode value) := by
  rcases scalar_cases scalar with ⟨plain, code⟩ | ⟨text, clear, marked, rfl⟩
  · rw [scalarText_of_short plain short, code]
  · rfl

/-! ## Entries -/

/-- No mapping in the document repeats a key, and the language writes every integer in it. -/
inductive Orderly {φ : Type} : Document φ → Prop
  | null : Orderly .null
  | bool (b : Bool) : Orderly (.bool b)
  | int {n : ℤ} (short : n.natAbs < 10 ^ maxStrDigits) : Orderly (.int n)
  | float (x : φ) : Orderly (.float x)
  | str (text : Text) : Orderly (.str text)
  | list {items : List (Document φ)} (each : ∀ item ∈ items, Orderly item) : Orderly (.list items)
  | obj {members : List (Text × Document φ)} (keys : (members.map Prod.fst).Nodup)
      (each : ∀ member ∈ members, Orderly member.2) : Orderly (.obj members)

structure StatedEntry where
  document : Document FloatNumber
  orderly : Orderly document

section

variable {φ : Type}

theorem Orderly.short {value : Document φ} (orderly : Orderly value) : Short value := by
  cases orderly with
  | int short => exact short
  | _ => trivial

theorem Orderly.keys {value : Document φ} (orderly : Orderly value) :
    ((membersOf value).map Prod.fst).Nodup := by
  cases orderly with
  | obj keys each => exact keys
  | _ => exact List.nodup_nil

theorem Orderly.member {value : Document φ} (orderly : Orderly value)
    {member : Text × Document φ} (inside : member ∈ membersOf value) : Orderly member.2 := by
  cases orderly with
  | obj keys each => exact each member inside
  | _ => cases inside

theorem keptField_fst {entry kept : Text × Document φ} (left : keptField entry = some kept) :
    kept.1 = entry.1 := by
  unfold keptField at left
  split at left
  · split at left
    · cases left
      rfl
    · obtain ⟨value, -, rfl⟩ := Option.map_eq_some_iff.mp left
      rfl
  · cases left
    rfl

theorem keptField_orderly {entry kept : Text × Document φ} (orderly : Orderly entry.2)
    (left : keptField entry = some kept) : Orderly kept.2 := by
  unfold keptField at left
  split at left
  next mapping isMapping =>
    split at left
    · cases left
      exact orderly
    · obtain ⟨value, found, rfl⟩ := Option.map_eq_some_iff.mp left
      rw [isMapping] at orderly
      have present : (offerKey, value) ∈ membersOf (.obj mapping) := mem_of_findMember found
      exact @Orderly.member _ _ orderly (offerKey, value) present
  next =>
    cases left
    exact orderly

theorem baseFamily_fst {member kept : Text × Document φ} (left : baseFamily member = some kept) :
    kept.1 = member.1 := by
  unfold baseFamily at left
  split at left
  · split at left
    · cases left
    · cases left
      rfl
  · cases left
    rfl

theorem keys_filterMap_sublist {α β κ : Type} {items : List α} {f : α → Option β} {key : α → κ}
    {key' : β → κ} (same : ∀ {item kept}, f item = some kept → key' kept = key item) :
    ((items.filterMap f).map key').Sublist (items.map key) := by
  induction items with
  | nil => exact List.Sublist.refl _
  | cons item rest ih =>
    cases left : f item with
    | none =>
      rw [List.filterMap_cons_none left]
      exact ih.cons _
    | some kept =>
      rw [List.filterMap_cons_some left, List.map_cons, List.map_cons, same left]
      exact ih.cons_cons _

theorem baseFamily_orderly {member kept : Text × Document φ} (orderly : Orderly member.2)
    (left : baseFamily member = some kept) : Orderly kept.2 := by
  unfold baseFamily at left
  split at left
  next field fields isMapping =>
    rw [isMapping] at orderly
    split at left
    · cases left
    · cases left
      refine .obj (orderly.keys.sublist (keys_filterMap_sublist keptField_fst)) fun entry inside => ?_
      obtain ⟨stated, present, left⟩ := List.mem_filterMap.mp inside
      exact keptField_orderly (orderly.member present) left
  next =>
    cases left
    exact orderly

/-- **The base shape of an orderly entry is orderly.** -/
theorem baseOf_orderly {raw : Document φ} (orderly : Orderly raw) : Orderly (baseOf raw) := by
  unfold baseOf
  split
  · refine .obj (orderly.keys.sublist (keys_filterMap_sublist baseFamily_fst)) fun member inside => ?_
    obtain ⟨stated, present, left⟩ := List.mem_filterMap.mp inside
    exact baseFamily_orderly (orderly.member present) left
  · exact orderly

theorem Orderly.distinct {shape : Document φ} (orderly : Orderly shape) : Distinct shape :=
  ⟨orderly.keys, fun _ inside => (orderly.member inside).keys⟩

theorem Orderly.states {shape : Document φ} (orderly : Orderly shape) {family field : Text}
    {value : Document φ} (stated : States shape family field value) : Orderly value := by
  obtain ⟨fields, inside, present⟩ := states_iff.mp stated
  exact (orderly.member inside).member present

end

/-! ## Readable base shapes -/

abbrev Families : Type := List (Text × List (Text × Document FloatNumber))

def readBase (schema : Option CapabilitySchema) (raw : Document FloatNumber) : Option Families :=
  match baseShapeProblems schema (baseOf raw) with
  | [] => some (canonicalFamilies (baseOf raw))
  | _ :: _ => none

def baseText (families : Families) : Text := objectText (families.map (familyCode scalarCode))

def Written (families : Families) : Prop :=
  ∀ member ∈ families, ∀ entry ∈ member.2, isScalar entry.2 = true ∧ Short entry.2

theorem structured_of_baseShapeProblems {schema : Option CapabilitySchema}
    {shape : Document FloatNumber} (read : baseShapeProblems schema shape = []) :
    shapeStructureProblems shape = [] := by
  cases schema with
  | none => exact read
  | some schema =>
    have read : shapeProblems shape schema = [] := read
    unfold shapeProblems at read
    dsimp only at read
    split at read
    next structured => exact structured
    next problem problems some' => exact absurd read (some' ▸ List.cons_ne_nil _ _)

variable {families : Families}

theorem readBase_eq_some {schema : Option CapabilitySchema} {raw : Document FloatNumber} :
    readBase schema raw = some families ↔
      baseShapeProblems schema (baseOf raw) = [] ∧ families = canonicalFamilies (baseOf raw) := by
  unfold readBase
  cases baseShapeProblems schema (baseOf raw) with
  | nil => exact ⟨fun same => ⟨rfl, (Option.some.inj same).symm⟩, fun both => congrArg _ both.2.symm⟩
  | cons problem problems => exact iff_of_false nofun fun both => List.cons_ne_nil _ _ both.1

section

variable {schema : Option CapabilitySchema} {entry : StatedEntry} {families : Families}

theorem written_of_readBase (read : readBase schema entry.document = some families) :
    Written families := by
  obtain ⟨clear, rfl⟩ := readBase_eq_some.mp read
  have orderly := baseOf_orderly entry.orderly
  have structured := (structured_iff orderly.distinct).mp (structured_of_baseShapeProblems clear)
  intro member inside field present
  have stated := ((sameShape_canonicalFamilies _).states _ _ _).mp
    (states_ofFamilies.mpr ⟨member.2, inside, present⟩)
  exact ⟨(structured.scalar _ _ _ stated).2.2, (orderly.states stated).short⟩

theorem canonicalShapeJson_of_readBase (read : readBase schema entry.document = some families) :
    canonicalShapeJson (ofFamilies families) = .ok (baseText families) := by
  have written := written_of_readBase read
  obtain ⟨clear, rfl⟩ := readBase_eq_some.mp read
  have orderly := baseOf_orderly entry.orderly
  have same := sameShape_canonicalFamilies (baseOf entry.document)
  have distinct := distinct_canonicalFamilies orderly.distinct
  have structured : shapeStructureProblems (ofFamilies (canonicalFamilies (baseOf entry.document))) =
      [] := by
    have structured := (structured_iff orderly.distinct).mp (structured_of_baseShapeProblems clear)
    refine (structured_iff distinct).mpr ⟨?_, ?_, ?_⟩
    · obtain ⟨family, field, value, stated⟩ := structured.stated
      exact ⟨family, field, value, (same.states _ _ _).mpr stated⟩
    · intro family named
      obtain ⟨field, value, stated⟩ := structured.filled family ((same.names _).mp named)
      exact ⟨field, value, (same.states _ _ _).mpr stated⟩
    · intro family field value stated
      exact structured.scalar _ _ _ ((same.states _ _ _).mp stated)
  have canonical : canonicalFamilies (ofFamilies (canonicalFamilies (baseOf entry.document))) =
      canonicalFamilies (baseOf entry.document) :=
    (canonicalFamilies_eq_iff distinct orderly.distinct).mpr same
  rw [canonicalShapeJson, canonicalShape_eq_ok.mpr ⟨structured, rfl⟩]
  dsimp only
  rw [canonical, familiesText_of_some fun member inside field present =>
    scalarText_eq (written member inside field present).1 (written member inside field present).2]
  rfl

end

/-- **The canonical text tells the base shape.** -/
theorem baseText_inj {first second : Families} (written : Written first) (written' : Written second)
    (same : baseText first = baseText second) : first = second :=
  families_inj scalarCode_ended (fun member inside entry present =>
    (written member inside entry present).1) (fun member inside entry present =>
    (written' member inside entry present).1) same

/-! ## Surrogates -/

variable {point : ℕ}

def Encodable (text : Text) : Prop := ∀ point ∈ text, surrogate point = false

/-- No family name, field name or text value of the base shape holds a surrogate. -/
def EncodableBase (families : Families) : Prop :=
  ∀ member ∈ families, Encodable member.1 ∧ ∀ entry ∈ member.2, Encodable entry.1 ∧
    ∀ text, entry.2 = .str text → Encodable text

theorem encodable_append {first second : Text} :
    Encodable (first ++ second) ↔ Encodable first ∧ Encodable second :=
  List.forall_mem_append

theorem encodable_cons :
    Encodable (point :: text) ↔ surrogate point = false ∧ Encodable text :=
  List.forall_mem_cons

theorem encodable_encodePoint (point : ℕ) :
    Encodable (encodePoint point) ↔ surrogate point = false := by
  by_cases low : point < 0x80
  · have small : ∀ point < 0x80, (∀ code ∈ encodePoint point, surrogate code = false) ∧
        surrogate point = false := by decide +kernel
    exact iff_of_true (small point low).1 (small point low).2
  · have plain : encodePoint point = [point] := by
      unfold encodePoint
      rw [if_neg, if_neg, if_neg, if_neg, if_neg, if_neg, if_neg, if_neg]
      all_goals
        intro same
        first
          | exact low (same ▸ by decide)
          | omega
    rw [plain, encodable_cons]
    exact and_iff_left (List.forall_mem_nil _)

theorem encodable_literal : Encodable (literal text) ↔ Encodable text := by
  have quote : surrogate '"'.toNat = false := by decide
  have inside : Encodable (encodeString text) ↔ Encodable text := by
    unfold Encodable encodeString
    simp only [List.mem_flatMap, forall_exists_index, and_imp]
    constructor
    · intro clear point present
      exact (encodable_encodePoint point).mp fun code written => clear code point present written
    · intro clear code point present written
      exact (encodable_encodePoint point).mpr (clear point present) code written
  unfold literal
  rw [encodable_cons, encodable_append, encodable_cons, inside]
  exact ⟨fun all => all.2.1, fun clear => ⟨quote, clear, quote, List.forall_mem_nil _⟩⟩

theorem encodable_memberText {key value : Text} :
    Encodable (memberText key value) ↔ Encodable key ∧ Encodable value := by
  unfold memberText
  rw [encodable_append, encodable_cons, encodable_literal]
  exact and_congr_right fun _ => and_iff_right (by decide)

theorem encodable_objectText {members : List Text} :
    Encodable (objectText members) ↔ ∀ member ∈ members, Encodable member := by
  have joined : Encodable ([','.toNat].intercalate members) ↔
      ∀ member ∈ members, Encodable member := by
    induction members with
    | nil => exact iff_of_true (List.forall_mem_nil _) (List.forall_mem_nil _)
    | cons member rest ih =>
      cases rest with
      | nil =>
        rw [List.forall_mem_singleton]
        simp [List.intercalate]
      | cons next others =>
        have comma : Encodable [','.toNat] :=
          encodable_cons.mpr ⟨by decide, List.forall_mem_nil _⟩
        rw [List.intercalate_cons_cons, encodable_append, encodable_append, ih,
          @List.forall_mem_cons _ _ member]
        exact and_congr_left fun _ => and_iff_left comma
  unfold objectText
  rw [encodable_cons, encodable_append, encodable_cons, joined]
  exact ⟨fun all => all.2.1, fun clear => ⟨by decide, clear, by decide, List.forall_mem_nil _⟩⟩

theorem surrogate_of_isDigit (digit : isDigit point = true) :
    surrogate point = false := by
  unfold isDigit at digit
  rw [Bool.and_eq_true, decide_eq_true_eq, decide_eq_true_eq] at digit
  have low : point ≤ '9'.toNat := digit.2
  have bound : '9'.toNat < 0xD800 := by decide
  have less : ¬0xD800 ≤ point := by omega
  simp [surrogate, less]

theorem surrogate_of_floatPoint (allowed : floatPoint point = true) :
    surrogate point = false := by
  unfold floatPoint at allowed
  simp only [Bool.or_eq_true, decide_eq_true_eq] at allowed
  rcases allowed with (((digit | rfl) | rfl) | rfl) | rfl
  · exact surrogate_of_isDigit digit
  all_goals decide

theorem encodable_scalarCode (scalar : isScalar value = true) :
    Encodable (scalarCode value) ↔ ∀ text, value = .str text → Encodable text := by
  by_cases isText : IsText value
  · obtain ⟨text, rfl⟩ := isText
    refine encodable_literal.trans ⟨fun clear other same => ?_, fun all => all text rfl⟩
    cases same
    exact clear
  · refine iff_of_true ?_ fun text same => absurd ⟨text, same⟩ isText
    intro point inside
    rcases scalar_cases scalar with ⟨plain, code⟩ | ⟨text, clear, marked, rfl⟩
    · rw [code] at inside
      cases value with
      | bool b =>
        revert point
        cases b <;> decide
      | str text => exact absurd ⟨text, rfl⟩ isText
      | int n =>
        rcases mem_intCode inside with rfl | digit
        · decide
        · exact surrogate_of_isDigit digit
      | _ => exact plain.elim
    · exact surrogate_of_floatPoint (List.all_eq_true.mp clear point inside)

/-- **The canonical text of a base shape is encoded unless a name or a text in it holds a
surrogate.** -/
theorem encodable_baseText (written : Written families) :
    Encodable (baseText families) ↔ EncodableBase families := by
  unfold baseText EncodableBase
  rw [encodable_objectText, List.forall_mem_map]
  refine forall₂_congr fun member inside => ?_
  unfold familyCode
  rw [encodable_memberText, encodable_objectText, List.forall_mem_map]
  refine and_congr_right fun _ => forall₂_congr fun entry present => ?_
  unfold fieldCode
  rw [encodable_memberText, encodable_scalarCode (written member inside entry present).1]

theorem any_surrogate : text.any surrogate = false ↔ Encodable text := by
  rw [List.any_eq_false]
  exact forall₂_congr fun point _ => by rw [Bool.not_eq_true]

section

variable {language : Language FloatNumber} {schema : Option CapabilitySchema} {entry : StatedEntry}

theorem digestOf_of_none (unread : readBase schema entry.document = none) :
    digestOf language schema entry.document = .ok none := by
  unfold readBase at unread
  unfold digestOf
  cases judged : baseShapeProblems schema (baseOf entry.document) with
  | nil =>
    rw [judged] at unread
    cases unread
  | cons problem problems => rfl

/-- **When a readable base shape has a digest, and which.** -/
theorem digestOf_of_some (read : readBase schema entry.document = some families)
    {digest : Option Text} :
    digestOf language schema entry.document = .ok digest ↔
      EncodableBase families ∧
        digest = some (shapeDigestPrefix ++ language.sha256 (baseText families)) := by
  obtain ⟨clear, same⟩ := readBase_eq_some.mp read
  have json := canonicalShapeJson_of_readBase read
  have encodes := encodable_baseText (written_of_readBase read)
  unfold digestOf
  rw [clear]
  dsimp only
  rw [← same, shapeDigest, json]
  dsimp only
  split
  next refused =>
    refine iff_of_false nofun fun both => ?_
    rw [any_surrogate.mpr (encodes.mpr both.1)] at refused
    cases refused
  next allowed =>
  rw [Bool.not_eq_true, any_surrogate, encodes] at allowed
  constructor
  · intro digested
    cases digested
    exact ⟨allowed, rfl⟩
  · rintro ⟨-, rfl⟩
    rfl

end

end ComputeMarket.Shapes
