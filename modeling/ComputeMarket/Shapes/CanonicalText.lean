import ComputeMarket.Library.DecimalTexts
import ComputeMarket.Library.Framing
import ComputeMarket.Shapes.Flattening

/-!
# The canonical text of a shape

`canonical_shape_json`: the JSON text of a shape's canonical form, which is what the digest of a
shape is taken of.

For a shape of texts, integers and booleans the text is there where every integer is one that the
language writes, and tells what the shape states: `canonical_text_identifies_iff`.
-/

namespace ComputeMarket.Shapes

open Texts

variable {φ : Type}

def literal (text : Text) : Text := '"'.toNat :: (encodeString text ++ ['"'.toNat])

def objectText (members : List Text) : Text :=
  '{'.toNat :: ([','.toNat].intercalate members ++ ['}'.toNat])

section

variable [Floats φ]

def scalarText : Document φ → Option Text
  | .null => some (points "null")
  | .bool b => some (points (if b then "true" else "false"))
  | .int n => strOfInt n
  | .float x => some (Floats.text x)
  | .str text => some (literal text)
  | _ => none

def memberText (key : Text) (value : Text) : Text := literal key ++ ':'.toNat :: value

def familyText (member : Text × List (Text × Document φ)) : Option Text :=
  (member.2.mapM fun entry => (scalarText entry.2).map (memberText entry.1)).map fun texts =>
    memberText member.1 (objectText texts)

/-- `json.dumps` of nested mappings of scalars whose members are in order. -/
def familiesText (families : List (Text × List (Text × Document φ))) : Option Text :=
  (families.mapM familyText).map objectText

inductive CanonicalTextError (φ : Type)
  | refused (problems : List (ShapeProblem φ))
  /-- The language does not write an integer. -/
  | digits

def canonicalShapeJson (shape : Document φ) : Except (CanonicalTextError φ) Text :=
  match canonicalShape shape with
  | .error problems => .error (.refused problems)
  | .ok families =>
    match familiesText families with
    | none => .error .digits
    | some text => .ok text

end

theorem literal_append (text behind : Text) :
    literal text ++ behind = '"'.toNat :: (encodeString text ++ '"'.toNat :: behind) := by
  simp only [literal, List.cons_append, List.append_assoc, List.nil_append]

theorem literal_delimits : SelfDelimitingOn Set.univ literal := by
  intro first _ second _ rest rest' same
  rw [literal_append, literal_append] at same
  have scanned := congrArg (scanString false) (List.cons.inj same).2
  rw [scanString_encodeString, scanString_encodeString, Option.some.injEq, Prod.mk.injEq] at scanned
  obtain ⟨inside, rests⟩ := scanned
  have decoded := congrArg decodeString inside
  rw [decodeString_encodeString, decodeString_encodeString, Option.some.injEq] at decoded
  exact ⟨decoded, rests⟩

def intCode (n : ℤ) : Text :=
  if n < 0 then '-'.toNat :: digitPoints (digitsOf n.natAbs) else digitPoints (digitsOf n.natAbs)

theorem digitPoints_digitsOf_inj {first second : ℕ}
    (same : digitPoints (digitsOf first) = digitPoints (digitsOf second)) : first = second := by
  rw [← numberOf_digitsOf first, digitPoints_inj same, numberOf_digitsOf]

theorem isDigit_of_mem_digitsOf {number point : ℕ}
    (inside : point ∈ digitPoints (digitsOf number)) : isDigit point = true :=
  all_isDigit_digitPoints (fun _ => lt_of_mem_digitsOf) point inside

theorem mem_intCode {n : ℤ} {point : ℕ} (inside : point ∈ intCode n) :
    point = '-'.toNat ∨ isDigit point = true := by
  unfold intCode at inside
  split at inside
  · exact (List.mem_cons.mp inside).imp id isDigit_of_mem_digitsOf
  · exact .inr (isDigit_of_mem_digitsOf inside)

theorem intCode_ne_nil (n : ℤ) : intCode n ≠ [] := by
  have some' : digitPoints (digitsOf n.natAbs) ≠ [] := by
    rw [ne_eq, digitPoints, List.map_eq_nil_iff]
    exact digitsOf_ne_nil _
  unfold intCode
  split
  · exact List.cons_ne_nil _ _
  · exact some'

theorem intCode_inj {first second : ℤ} (same : intCode first = intCode second) :
    first = second := by
  have sign : ∀ {text number : _}, '-'.toNat :: text ≠ digitPoints (digitsOf number) := by
    intro text number equal
    have digit := isDigit_of_mem_digitsOf (equal ▸ List.mem_cons_self : '-'.toNat ∈ _)
    revert digit
    decide
  unfold intCode at same
  split at same
  · split at same
    · have numbers := digitPoints_digitsOf_inj (List.cons.inj same).2
      omega
    · exact absurd same sign
  · split at same
    · exact absurd same.symm sign
    · have numbers := digitPoints_digitsOf_inj same
      omega

/-! ## Plain values -/

variable {value : Document φ} {code : Document φ → Text}

def Plain : Document φ → Prop
  | .str _ | .int _ | .bool _ => True
  | _ => False

def Short : Document φ → Prop
  | .int n => n.natAbs < 10 ^ maxStrDigits
  | _ => True

def plainCode : Document φ → Text
  | .bool b => points (if b then "true" else "false")
  | .int n => intCode n
  | .str text => literal text
  | _ => []

theorem scalarText_of_short [Floats φ] (plain : Plain value) (short : Short value) :
    scalarText value = some (plainCode value) := by
  cases value with
  | bool b => rfl
  | str text => rfl
  | int n =>
    rw [scalarText, strOfInt, strOf_of_short short, Option.map_some, plainCode, intCode]
  | _ => exact plain.elim

theorem scalarText_of_long [Floats φ] (plain : Plain value) (long : ¬Short value) :
    scalarText value = none := by
  cases value with
  | int n => rw [scalarText, strOfInt, strOf_of_long long, Option.map_none]
  | bool b => exact absurd trivial long
  | str text => exact absurd trivial long
  | _ => exact plain.elim

/-- What a member of an object ends with: a comma or the brace behind the last one. -/
def memberMarks : Set ℕ := {','.toNat, '}'.toNat}

def IsText (value : Document φ) : Prop := ∃ text, value = .str text

theorem clear_of_not_text (plain : Plain value) (other : ¬IsText value) :
    plainCode value ≠ [] ∧
      ∀ point ∈ plainCode value, point ≠ '"'.toNat ∧ point ∉ memberMarks := by
  cases value with
  | str text => exact absurd ⟨text, rfl⟩ other
  | bool b => cases b <;> simp [plainCode, points, memberMarks]
  | int n =>
    refine ⟨intCode_ne_nil n, fun point inside => ?_⟩
    rcases mem_intCode inside with rfl | digit
    · simp [memberMarks]
    · refine ⟨?_, ?_⟩
      · rintro rfl
        cases digit
      · rintro (rfl | rfl)
        · cases digit
        · cases digit
  | _ => exact plain.elim

theorem boolCode_ne_intCode (b : Bool) (n : ℤ) :
    points (if b then "true" else "false") ≠ intCode n := by
  intro same
  have first : ∃ point ∈ intCode n, point = 't'.toNat ∨ point = 'f'.toNat := by
    rw [← same]
    cases b
    · exact ⟨'f'.toNat, List.mem_cons_self, .inr rfl⟩
    · exact ⟨'t'.toNat, List.mem_cons_self, .inl rfl⟩
  obtain ⟨point, inside, rfl | rfl⟩ := first
  · rcases mem_intCode inside with sign | digit
    · revert sign
      decide
    · revert digit
      decide
  · rcases mem_intCode inside with sign | digit
    · revert sign
      decide
    · revert digit
      decide

theorem plainCode_injOn :
    Set.InjOn plainCode {value : Document φ | Plain value ∧ ¬IsText value} := by
  rintro first ⟨plain, other⟩ second ⟨plain', other'⟩ same
  cases first with
  | str text => exact absurd ⟨text, rfl⟩ other
  | bool b =>
    cases second with
    | str text => exact absurd ⟨text, rfl⟩ other'
    | bool b' =>
      cases b <;> cases b'
      · rfl
      · cases same
      · cases same
      · rfl
    | int n => exact absurd same (boolCode_ne_intCode b n)
    | _ => exact plain'.elim
  | int n =>
    cases second with
    | str text => exact absurd ⟨text, rfl⟩ other'
    | bool b => exact absurd same.symm (boolCode_ne_intCode b n)
    | int n' => exact congrArg Document.int (intCode_inj same)
    | _ => exact plain'.elim
  | _ => exact plain.elim

theorem ended_of_literals {values : Set (Document φ)}
    (texts : ∀ text, code (.str text) = literal text)
    (clear : ∀ value ∈ values, ¬IsText value → code value ≠ [] ∧
      ∀ point ∈ code value, point ≠ '"'.toNat ∧ point ∉ memberMarks)
    (apart : Set.InjOn code {value | value ∈ values ∧ ¬IsText value}) :
    EndedBy memberMarks values code := by
  have others : EndedBy memberMarks {value | value ∈ values ∧ ¬IsText value} code :=
    .of_clear (fun value valid point inside => ((clear value valid.1 valid.2).2 point inside).2)
      apart
  -- A text begins with a quote, and nothing else does.
  have starts : ∀ {first second : Document φ}, IsText first → second ∈ values → ¬IsText second →
      ∀ {rest rest' : Text}, code first ++ rest ≠ code second ++ rest' := by
    rintro _ second ⟨text, rfl⟩ valid other rest rest' same
    obtain ⟨filled, clear⟩ := clear second valid other
    obtain ⟨point, behind, written⟩ := List.exists_cons_of_ne_nil filled
    rw [texts, written] at same
    rw [written] at clear
    exact (clear point List.mem_cons_self).1 (List.cons.inj same).1.symm
  intro first valid second valid' mark isMark mark' isMark' rest rest' same
  by_cases text : IsText first
  · by_cases text' : IsText second
    · obtain ⟨inside, rfl⟩ := text
      obtain ⟨inside', rfl⟩ := text'
      rw [texts, texts] at same
      obtain ⟨rfl, ends⟩ := literal_delimits (Set.mem_univ inside) (Set.mem_univ inside') same
      exact ⟨rfl, List.cons.inj ends⟩
    · exact absurd same (starts text valid' text')
  · by_cases text' : IsText second
    · exact absurd same.symm (starts text' valid text)
    · exact others ⟨valid, text⟩ ⟨valid', text'⟩ isMark isMark' same

/-- **A plain value in front of a comma or a brace tells itself.** -/
theorem plainCode_ended :
    EndedBy memberMarks {value : Document φ | Plain value} plainCode :=
  ended_of_literals (fun _ => rfl) (fun _ plain other => clear_of_not_text plain other)
    plainCode_injOn

section

variable {values : Set (Document φ)} {code : Document φ → Text}

def fieldCode (code : Document φ → Text) (entry : Text × Document φ) : Text :=
  memberText entry.1 (code entry.2)

def familyCode (code : Document φ → Text) (member : Text × List (Text × Document φ)) : Text :=
  memberText member.1 (objectText (member.2.map (fieldCode code)))

def FieldsOf (values : Set (Document φ)) (fields : List (Text × Document φ)) : Prop :=
  ∀ entry ∈ fields, entry.2 ∈ values

theorem key_delimits : SelfDelimitingOn Set.univ fun key => literal key ++ [':'.toNat] :=
  literal_delimits.append_const _

theorem memberText_eq (key value : Text) : memberText key value = literal key ++ [':'.toNat] ++ value := by
  rw [memberText, List.append_assoc]
  rfl

theorem head?_memberText (key value rest : Text) :
    (memberText key value ++ rest).head? ≠ some '}'.toNat := by
  rw [memberText, literal_append, List.cons_append, List.head?_cons]
  decide

theorem fields_delimit (ended : EndedBy memberMarks values code) :
    SelfDelimitingOn {fields | FieldsOf values fields}
      (fun fields => objectText (fields.map (fieldCode code))) := by
  have members : EndedBy memberMarks {entry : Text × Document φ | entry.2 ∈ values}
      (fieldCode code) := by
    have pairs := ended.after key_delimits
    intro first inside second inside' mark isMark mark' isMark' rest rest' same
    simp only [fieldCode, memberText_eq] at same
    exact pairs ⟨Set.mem_univ _, inside⟩ ⟨Set.mem_univ _, inside'⟩ isMark isMark' same
  have closed := members.closed ','.toNat '}'.toNat (.inl rfl) (.inr rfl) (by decide)
    fun entry _ rest => head?_memberText _ _ rest
  intro first valid second valid' rest rest' same
  exact closed valid valid' (List.cons.inj same).2

/-- **The text of a shape tells it.** -/
theorem families_inj (ended : EndedBy memberMarks values code)
    {first second : List (Text × List (Text × Document φ))}
    (valid : ∀ member ∈ first, FieldsOf values member.2)
    (valid' : ∀ member ∈ second, FieldsOf values member.2)
    (same : objectText (first.map (familyCode code)) = objectText (second.map (familyCode code))) :
    first = second := by
  have members : EndedBy memberMarks
      {member : Text × List (Text × Document φ) | FieldsOf values member.2} (familyCode code) := by
    have pairs := ((fields_delimit ended).endedBy memberMarks).after key_delimits
    intro first inside second inside' mark isMark mark' isMark' rest rest' same
    simp only [familyCode, memberText_eq] at same
    exact pairs ⟨Set.mem_univ _, inside⟩ ⟨Set.mem_univ _, inside'⟩ isMark isMark' same
  have closed := members.closed ','.toNat '}'.toNat (.inl rfl) (.inr rfl) (by decide)
    fun member _ rest => head?_memberText _ _ rest
  exact closed.injOn valid valid' (List.cons.inj same).2

end

/-! ## Where there is a text -/

theorem mapM_of_some {α β : Type} {f : α → Option β} {g : α → β} {inputs : List α}
    (each : ∀ input ∈ inputs, f input = some (g input)) : inputs.mapM f = some (inputs.map g) := by
  induction inputs with
  | nil => rfl
  | cons input rest ih =>
    rw [List.mapM_cons, each input List.mem_cons_self,
      ih fun other inside => each other (List.mem_cons_of_mem _ inside)]
    rfl

theorem mapM_of_none {α β : Type} {f : α → Option β} {inputs : List α} {input : α}
    (inside : input ∈ inputs) (none : f input = .none) : inputs.mapM f = .none := by
  induction inputs with
  | nil => cases inside
  | cons first rest ih =>
    rw [List.mapM_cons]
    rcases List.mem_cons.mp inside with rfl | later
    · rw [none]
      rfl
    · cases f first with
      | none => rfl
      | some value =>
        rw [ih later]
        rfl

section

variable [Floats φ] {member : Text × List (Text × Document φ)}

theorem familyText_of_some
    (written : ∀ entry ∈ member.2, scalarText entry.2 = some (code entry.2)) :
    familyText member = some (familyCode code member) := by
  rw [familyText, mapM_of_some (g := fieldCode code) fun entry inside => ?_]
  · rfl
  · rw [written entry inside]
    rfl

theorem familiesText_of_some {families : List (Text × List (Text × Document φ))}
    (written : ∀ member ∈ families, ∀ entry ∈ member.2, scalarText entry.2 = some (code entry.2)) :
    familiesText families = some (objectText (families.map (familyCode code))) := by
  rw [familiesText, mapM_of_some (g := familyCode code) fun member inside => ?_]
  · rfl
  · exact familyText_of_some (written member inside)

theorem familyText_of_long {entry : Text × Document φ} (inside : entry ∈ member.2)
    (plain : Plain entry.2) (long : ¬Short entry.2) : familyText member = none := by
  rw [familyText, mapM_of_none inside (by rw [scalarText_of_long plain long]; rfl)]
  rfl

/-- A shape of texts, integers and booleans without a structural problem. -/
structure PlainShape (φ : Type) [Floats φ] where
  document : Document φ
  distinct : Distinct document
  structured : shapeStructureProblems document = []
  plain : ∀ family field value, States document family field value → Plain value

def ShortShape (shape : Document φ) : Prop :=
  ∀ family field value, States shape family field value → Short value

namespace PlainShape

variable (shape : PlainShape φ)

theorem states_of_mem (inside : member ∈ canonicalFamilies shape.document)
    {entry : Text × Document φ} (present : entry ∈ member.2) :
    States shape.document member.1 entry.1 entry.2 :=
  ((sameShape_canonicalFamilies shape.document).states _ _ _).mp
    (states_ofFamilies.mpr ⟨member.2, inside, present⟩)

theorem fieldsOf (inside : member ∈ canonicalFamilies shape.document) :
    FieldsOf {value | Plain value} member.2 :=
  fun _ present => shape.plain _ _ _ (shape.states_of_mem inside present)

theorem json_of_short (short : ShortShape shape.document) :
    canonicalShapeJson shape.document =
      .ok (objectText ((canonicalFamilies shape.document).map (familyCode plainCode))) := by
  rw [canonicalShapeJson, canonicalShape_eq_ok.mpr ⟨shape.structured, rfl⟩]
  dsimp only
  rw [familiesText_of_some fun member inside entry present => scalarText_of_short
    (shape.fieldsOf inside entry present) (short _ _ _ (shape.states_of_mem inside present))]

theorem json_of_long (long : ¬ShortShape shape.document) :
    canonicalShapeJson shape.document = .error .digits := by
  unfold ShortShape at long
  push Not at long
  obtain ⟨family, field, value, stated, long⟩ := long
  obtain ⟨fields, inside, present⟩ := states_ofFamilies.mp
    (((sameShape_canonicalFamilies shape.document).states _ _ _).mpr stated)
  have none : familiesText (canonicalFamilies shape.document) = .none := by
    rw [familiesText, mapM_of_none inside
      (familyText_of_long present (shape.plain _ _ _ stated) long)]
    rfl
  rw [canonicalShapeJson, canonicalShape_eq_ok.mpr ⟨shape.structured, rfl⟩]
  dsimp only
  rw [none]

theorem json_eq_ok {text : Text} : canonicalShapeJson shape.document = .ok text ↔
    ShortShape shape.document ∧
      text = objectText ((canonicalFamilies shape.document).map (familyCode plainCode)) := by
  by_cases short : ShortShape shape.document
  · rw [shape.json_of_short short, Except.ok.injEq, eq_comm]
    exact ⟨fun same => ⟨short, same⟩, And.right⟩
  · rw [shape.json_of_long short]
    exact iff_of_false nofun fun both => short both.1

end PlainShape

structure Invertible (φ : Type) [Floats φ] (schema : CapabilitySchema) : Prop where
  undone : ∀ shape : Document φ, Distinct shape → ∀ flat, flattenShape shape schema = .ok flat →
    ∃ families, canonicalShape shape = .ok families ∧
      unflattenShape flat.quantities flat.attributes schema = .ok families
  redone : ∀ (quantities attributes : Dict Text (Document φ)) families,
    unflattenShape quantities attributes schema = .ok families →
      ∃ flat, flattenShape (ofFamilies families) schema = .ok flat ∧
        (∀ name, flat.quantities.get? name = quantities.get? name) ∧
        ∀ name, flat.attributes.get? name = attributes.get? name
  alike : ∀ shape : Document φ, Distinct shape → ∀ quantities attributes,
    Corresponds schema shape quantities attributes →
      ((∃ flat, flattenShape shape schema = .ok flat) ↔
        ∃ families, unflattenShape quantities attributes schema = .ok families)
  flat : ∀ shape : Document φ, Distinct shape → (∃ flat, flattenShape shape schema = .ok flat) →
    ∃ quantities attributes, Corresponds schema shape quantities attributes
  built : ∀ quantities attributes : Dict Text (Document φ),
    (∃ families, unflattenShape quantities attributes schema = .ok families) →
      ∃ shape, Distinct shape ∧ Corresponds schema shape quantities attributes

theorem invertible (schema : CapabilitySchema) : Invertible φ schema where
  undone _ distinct _ done := unflatten_flatten distinct done
  redone _ _ _ done := flatten_unflatten done
  alike _ distinct _ _ corresponds := corresponds.accepted_iff distinct
  flat _ distinct := fun ⟨flat, done⟩ =>
    ⟨flat.quantities, flat.attributes, corresponds_of_flatten distinct done⟩
  built _ _ := by
    rintro ⟨families, done⟩
    obtain ⟨built, assembled, -, -⟩ := unflattenShape_eq_ok.mp done
    exact ⟨ofShape built, distinct_ofShape built, built, assembled,
      fun _ _ _ => Iff.rfl, fun _ => Iff.rfl⟩

/-- The two shapes have a canonical text, and one and the same exactly where they state the
same. -/
structure Identifies (first second : PlainShape φ) : Prop where
  defined : ∃ text, canonicalShapeJson first.document = .ok text
  defined' : ∃ text, canonicalShapeJson second.document = .ok text
  same : ∀ text text', canonicalShapeJson first.document = .ok text →
    canonicalShapeJson second.document = .ok text' →
      (text = text' ↔ SameShape first.document second.document)

/-- **Flattening is invertible, and canonical texts identify shapes exactly where every integer in
them can be written.** -/
theorem canonical_text_identifies_iff (schema : CapabilitySchema) (first second : PlainShape φ) :
    Invertible φ schema ∧ Identifies first second ↔
      ShortShape first.document ∧ ShortShape second.document := by
  constructor
  · rintro ⟨-, ⟨text, done⟩, ⟨text', done'⟩, -⟩
    exact ⟨(first.json_eq_ok.mp done).1, (second.json_eq_ok.mp done').1⟩
  · rintro ⟨short, short'⟩
    refine ⟨invertible schema, ⟨_, first.json_of_short short⟩, ⟨_, second.json_of_short short'⟩, ?_⟩
    intro text text' done done'
    obtain ⟨-, rfl⟩ := first.json_eq_ok.mp done
    obtain ⟨-, rfl⟩ := second.json_eq_ok.mp done'
    rw [← canonicalFamilies_eq_iff first.distinct second.distinct]
    refine ⟨fun same => ?_, fun same => by rw [same]⟩
    exact families_inj plainCode_ended (fun _ inside => first.fieldsOf inside)
      (fun _ inside => second.fieldsOf inside) same

end

def countSchema : CapabilitySchema where
  fields := [⟨points "gpu", points "count", .quantity, points "gpu_count", true⟩]
  paths := List.nodup_singleton _
  flatNames := List.nodup_singleton _
  named := by
    intro definition inside
    rw [List.mem_singleton.mp inside]
    exact ⟨List.cons_ne_nil _ _, List.cons_ne_nil _ _, List.cons_ne_nil _ _⟩

def hugeCount : PlainShape Empty where
  document := .obj [(points "gpu", .obj [(points "count", .int (10 ^ maxStrDigits))])]
  distinct := by
    constructor
    · exact List.nodup_singleton _
    · intro member inside
      rw [List.mem_singleton.mp inside]
      exact List.nodup_singleton _
  structured := rfl
  plain := by
    intro family field value stated
    cases List.mem_singleton.mp stated
    trivial

/-- A well-formed shape whose canonical text is not defined. -/
theorem huge_count_undefined :
    ¬(Invertible Empty countSchema ∧ Identifies hugeCount hugeCount) := by
  rintro ⟨-, ⟨text, done⟩, -, -⟩
  have short : Short (.int (10 ^ maxStrDigits) : Document Empty) :=
    (hugeCount.json_eq_ok.mp done).1 (points "gpu") (points "count") _ List.mem_cons_self
  change ((10 : ℤ) ^ maxStrDigits).natAbs < 10 ^ maxStrDigits at short
  rw [Int.natAbs_pow] at short
  exact lt_irrefl _ short

end ComputeMarket.Shapes
