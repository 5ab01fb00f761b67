import ComputeMarket.Library.Framing
import ComputeMarket.Library.Run
import ComputeMarket.Principals.Models

/-!
# Canonical messages and keys

What is signed is a list of texts, each behind its length in four bytes (`frame_fields`); a
derived key is a list of components, each behind its length in digits (`length_prefixed_join`).
Both tell the list they were made of, whatever is in the texts (`frameFields_inj`,
`lengthPrefixedJoin_inj`), and every envelope has its message (`canonicalRequestBytes_ok` and
its two companions).
-/

namespace ComputeMarket.Principals

/-! ## Framed fields -/

/-- `CanonicalizationError`. -/
inductive CanonicalizationError
  /-- "canonical field exceeds byte bound". -/
  | exceedsByteBound

def MAX_CANONICAL_FIELD_BYTES : ℕ := 4096

/-- `field.encode("utf-8")`. -/
def encodeUtf8 (field : String) : List UInt8 :=
  field.toUTF8.data.toList

def framed (field : String) : List UInt8 :=
  bigEndian 4 (encodeUtf8 field).length ++ encodeUtf8 field

def frameFields : List String → Except CanonicalizationError (List UInt8)
  | [] => .ok []
  | field :: rest =>
    if MAX_CANONICAL_FIELD_BYTES < (encodeUtf8 field).length then .error .exceedsByteBound
    else (framed field ++ ·) <$> frameFields rest

theorem frameFields_eq_ok {fields : List String} {bytes : List UInt8} :
    frameFields fields = .ok bytes ↔
      (∀ field ∈ fields, (encodeUtf8 field).length ≤ MAX_CANONICAL_FIELD_BYTES) ∧
        bytes = fields.flatMap framed := by
  induction fields generalizing bytes with
  | nil =>
    constructor
    · intro done
      cases done
      exact ⟨fun _ inside => absurd inside List.not_mem_nil, rfl⟩
    · rintro ⟨-, rfl⟩
      rfl
  | cons field rest ih =>
    rw [frameFields]
    by_cases large : MAX_CANONICAL_FIELD_BYTES < (encodeUtf8 field).length
    · rw [if_pos large]
      constructor
      · intro done
        cases done
      · rintro ⟨small, -⟩
        exact absurd large (not_lt.mpr (small field List.mem_cons_self))
    · rw [if_neg large, map_eq_ok]
      constructor
      · rintro ⟨others, done, rfl⟩
        obtain ⟨small, rfl⟩ := ih.mp done
        exact ⟨List.forall_mem_cons.mpr ⟨not_lt.mp large, small⟩, List.flatMap_cons.symm⟩
      · rintro ⟨small, rfl⟩
        exact ⟨_, ih.mpr ⟨(List.forall_mem_cons.mp small).2, rfl⟩, List.flatMap_cons.symm⟩

theorem encodeUtf8_injective : Function.Injective encodeUtf8 := by
  intro first second same
  have arrays : first.toUTF8.data = second.toUTF8.data := Array.toList_inj.mp same
  exact String.toByteArray_inj.mp (ByteArray.ext arrays)

theorem framed_delimits :
    SelfDelimitingOn {field | (encodeUtf8 field).length ≤ MAX_CANONICAL_FIELD_BYTES} framed := by
  refine (bigEndian_delimits 4).counted.comp encodeUtf8 ?_ encodeUtf8_injective.injOn
  intro field small
  change (encodeUtf8 field).length ≤ MAX_CANONICAL_FIELD_BYTES at small
  exact Nat.lt_of_le_of_lt small (show MAX_CANONICAL_FIELD_BYTES < 256 ^ 4 by decide)

theorem framed_ne_nil (field : String) : framed field ≠ [] := by
  intro empty
  have length := congrArg List.length (List.append_eq_nil_iff.mp empty).1
  rw [length_bigEndian] at length
  cases length

/-- **Framed fields are told by their bytes.** -/
theorem frameFields_inj {first second : List String} {bytes : List UInt8}
    (framing : frameFields first = .ok bytes) (framing' : frameFields second = .ok bytes) :
    first = second := by
  obtain ⟨small, rfl⟩ := frameFields_eq_ok.mp framing
  obtain ⟨small', same⟩ := frameFields_eq_ok.mp framing'
  exact framed_delimits.flatMap_inj (fun field _ => framed_ne_nil field) small small' same

/-! ## Signed messages -/

/-- The fields of `canonical_request_bytes`. -/
def RequestEnvelope.fields (envelope : RequestEnvelope) : List String :=
  [envelope.protocol, envelope.role, envelope.principal.scheme.value,
    envelope.principal.identifier, envelope.method, envelope.operation, envelope.resource,
    envelope.request_id, toString envelope.timestamp, envelope.body_hash]

/-- The fields of `canonical_response_bytes`. -/
def ResponseEnvelope.fields (envelope : ResponseEnvelope) : List String :=
  [envelope.protocol, envelope.role, envelope.principal.scheme.value,
    envelope.principal.identifier, envelope.method, envelope.operation, envelope.resource,
    envelope.request_id, toString envelope.timestamp, toString envelope.status,
    envelope.body_hash]

/-- The fields of `canonical_rotation_bytes`. -/
def RotationIntent.fields (intent : RotationIntent) : List String :=
  [intent.protocol, intent.current.scheme.value, intent.current.identifier,
    intent.replacement.scheme.value, intent.replacement.identifier, intent.subject,
    intent.authority, intent.nonce, toString intent.overlap_seconds, toString intent.expires_at]

def canonicalRequestBytes (envelope : RequestEnvelope) :
    Except CanonicalizationError (List UInt8) :=
  frameFields envelope.fields

def canonicalResponseBytes (envelope : ResponseEnvelope) :
    Except CanonicalizationError (List UInt8) :=
  frameFields envelope.fields

def canonicalRotationBytes (intent : RotationIntent) :
    Except CanonicalizationError (List UInt8) :=
  frameFields intent.fields

theorem toString_inj {first second : ℕ} (same : toString first = toString second) :
    first = second := by
  rw [Nat.toString_eq_ofList_toDigits, Nat.toString_eq_ofList_toDigits] at same
  exact toDigits_injective (String.ofList_injective same)

theorem RequestEnvelope.eq_of_fields {first second : RequestEnvelope}
    (same : first.fields = second.fields) : first = second := by
  simp only [fields, List.cons.injEq, and_true] at same
  obtain ⟨protocol, role, scheme, identifier, method, operation, resource, request, stamp, body⟩ :=
    same
  have principal := Identity.eq_of scheme identifier
  have timestamp := toString_inj stamp
  cases first
  cases second
  simp_all

theorem ResponseEnvelope.eq_of_fields {first second : ResponseEnvelope}
    (same : first.fields = second.fields) : first = second := by
  simp only [fields, List.cons.injEq, and_true] at same
  obtain ⟨protocol, role, scheme, identifier, method, operation, resource, request, stamp, code,
    body⟩ := same
  have principal := Identity.eq_of scheme identifier
  have timestamp := toString_inj stamp
  have status := toString_inj code
  cases first
  cases second
  simp_all

theorem RotationIntent.eq_of_fields {first second : RotationIntent}
    (same : first.fields = second.fields) : first = second := by
  simp only [fields, List.cons.injEq, and_true] at same
  obtain ⟨protocol, scheme, identifier, scheme', identifier', subject, authority, nonce, seconds,
    expiry⟩ := same
  have current := Identity.eq_of scheme identifier
  have replacement := Identity.eq_of scheme' identifier'
  have overlap_seconds := toString_inj seconds
  have expires_at := toString_inj expiry
  cases first
  cases second
  simp_all

/-! ## Every envelope has its message -/

theorem length_encodeUtf8_le (field : String) : (encodeUtf8 field).length ≤ 4 * field.length := by
  obtain ⟨chars, rfl⟩ := String.exists_eq_ofList field
  have bytes : (encodeUtf8 (String.ofList chars)).length =
      (chars.flatMap String.utf8EncodeChar).length := by
    simp [encodeUtf8, List.utf8Encode]
  rw [bytes, String.length_ofList]
  clear bytes
  induction chars with
  | nil => rfl
  | cons char rest ih =>
    have one := char.utf8Size_le_four
    simp only [List.flatMap_cons, List.length_append, String.length_utf8EncodeChar,
      List.length_cons]
    omega

theorem small_of_length {field : String} (bound : ℕ) (bounded : field.length ≤ bound)
    (small : bound ≤ 1024) : (encodeUtf8 field).length ≤ MAX_CANONICAL_FIELD_BYTES := by
  have bytes := length_encodeUtf8_le field
  change (encodeUtf8 field).length ≤ 4096
  omega

theorem small_of_number {number : ℕ} (bounded : number ≤ maxInt64) :
    (encodeUtf8 (toString number)).length ≤ MAX_CANONICAL_FIELD_BYTES := by
  refine small_of_length 19 ?_ (by decide)
  rw [Nat.toString_eq_ofList_toDigits, String.length_ofList,
    Nat.length_toDigits_le_iff (by decide) (by decide)]
  exact Nat.lt_of_le_of_lt bounded (by decide)

theorem small_of_scheme (scheme : IdentityScheme) :
    (encodeUtf8 scheme.value).length ≤ MAX_CANONICAL_FIELD_BYTES := by
  refine small_of_length 7 ?_ (by decide)
  cases scheme <;> decide

theorem small_of_identifier (identity : Identity) :
    (encodeUtf8 identity.identifier).length ≤ MAX_CANONICAL_FIELD_BYTES :=
  small_of_length _ identity.bounded.2 (by decide)

theorem small_of_sha256 {digest : String} (valid : isSha256 digest = true) :
    (encodeUtf8 digest).length ≤ MAX_CANONICAL_FIELD_BYTES := by
  rw [isSha256, Bool.and_eq_true, beq_iff_eq] at valid
  exact small_of_length _ valid.1.le (by decide)

theorem canonicalRequestBytes_ok (envelope : RequestEnvelope) :
    ∃ bytes, canonicalRequestBytes envelope = .ok bytes := by
  refine ⟨_, frameFields_eq_ok.mpr ⟨?_, rfl⟩⟩
  simp only [RequestEnvelope.fields, List.forall_mem_cons]
  refine ⟨?_, small_of_length _ envelope.role_bounded.2 (by decide),
    small_of_scheme _, small_of_identifier _,
    small_of_length _ envelope.method_bounded.2 (by decide),
    small_of_length _ envelope.operation_bounded.2 (by decide),
    small_of_length _ envelope.resource_bounded (by decide),
    small_of_length _ envelope.request_id_bounded.2 (by decide),
    small_of_number envelope.timestamp_bounded, small_of_sha256 envelope.body_hash_digest,
    fun _ inside => absurd inside List.not_mem_nil⟩
  rw [envelope.protocol_literal]
  exact small_of_length 64 (by decide) (by decide)

theorem canonicalResponseBytes_ok (envelope : ResponseEnvelope) :
    ∃ bytes, canonicalResponseBytes envelope = .ok bytes := by
  refine ⟨_, frameFields_eq_ok.mpr ⟨?_, rfl⟩⟩
  simp only [ResponseEnvelope.fields, List.forall_mem_cons]
  have status : envelope.status ≤ maxInt64 :=
    envelope.status_bounded.2.trans (by decide)
  refine ⟨?_, small_of_length _ envelope.role_bounded.2 (by decide),
    small_of_scheme _, small_of_identifier _,
    small_of_length _ envelope.method_bounded.2 (by decide),
    small_of_length _ envelope.operation_bounded.2 (by decide),
    small_of_length _ envelope.resource_bounded (by decide),
    small_of_length _ envelope.request_id_bounded.2 (by decide),
    small_of_number envelope.timestamp_bounded, small_of_number status,
    small_of_sha256 envelope.body_hash_digest, fun _ inside => absurd inside List.not_mem_nil⟩
  rw [envelope.protocol_literal]
  exact small_of_length 64 (by decide) (by decide)

theorem canonicalRotationBytes_ok (intent : RotationIntent) :
    ∃ bytes, canonicalRotationBytes intent = .ok bytes := by
  refine ⟨_, frameFields_eq_ok.mpr ⟨?_, rfl⟩⟩
  simp only [RotationIntent.fields, List.forall_mem_cons]
  have overlap : intent.overlap_seconds ≤ maxInt64 :=
    intent.overlap_bounded.trans (by decide)
  refine ⟨?_, small_of_scheme _, small_of_identifier _, small_of_scheme _,
    small_of_identifier _, small_of_length _ intent.subject_bounded.2 (by decide),
    small_of_length _ intent.authority_bounded.2 (by decide),
    small_of_length _ intent.nonce_bounded.2 (by decide), small_of_number overlap,
    small_of_number intent.expires_bounded.2, fun _ inside => absurd inside List.not_mem_nil⟩
  rw [intent.protocol_literal]
  exact small_of_length 64 (by decide) (by decide)

def lengthPrefixed (value : String) : String :=
  toString value.length ++ ":" ++ value

def lengthPrefixedJoin (components : List String) : String :=
  ":".intercalate (components.map lengthPrefixed)

theorem toList_lengthPrefixed (value : String) :
    (lengthPrefixed value).toList =
      (Nat.toDigits 10 value.toList.length ++ [':']) ++ value.toList := by
  simp [lengthPrefixed, String.length_toList]

theorem lengthPrefixed_delimits :
    SelfDelimitingOn Set.univ (fun value : String => (lengthPrefixed value).toList) := by
  simp only [toList_lengthPrefixed]
  exact (toDigits_delimits ':' (by decide)).counted.comp String.toList
    (fun _ _ => trivial) (fun _ _ _ _ same => String.toList_inj.mp same)

theorem lengthPrefixed_ne_nil (value : String) : (lengthPrefixed value).toList ≠ [] := by
  rw [toList_lengthPrefixed]
  simp

/-- **A joined key tells its components.** -/
theorem lengthPrefixedJoin_inj {first second : List String}
    (same : lengthPrefixedJoin first = lengthPrefixedJoin second) : first = second := by
  have texts := congrArg String.toList same
  simp only [lengthPrefixedJoin, String.toList_intercalate, List.map_map] at texts
  exact lengthPrefixed_delimits.intercalate_inj (fun value _ => lengthPrefixed_ne_nil value) _
    (fun _ _ => trivial) (fun _ _ => trivial) texts

/-- **Signed and derived encodings tell what they encode**: lists of fields of equal bytes are
equal, envelopes of equal messages are the same envelope and of one kind, and joined keys that
are equal have the same components. -/
theorem encodings_injective :
    (∀ first second bytes, frameFields first = .ok bytes → frameFields second = .ok bytes →
      first = second) ∧
    (∀ request request' : RequestEnvelope,
      canonicalRequestBytes request = canonicalRequestBytes request' → request = request') ∧
    (∀ response response' : ResponseEnvelope,
      canonicalResponseBytes response = canonicalResponseBytes response' →
        response = response') ∧
    (∀ intent intent' : RotationIntent,
      canonicalRotationBytes intent = canonicalRotationBytes intent' → intent = intent') ∧
    (∀ request response, canonicalRequestBytes request ≠ canonicalResponseBytes response) ∧
    (∀ request intent, canonicalRequestBytes request ≠ canonicalRotationBytes intent) ∧
    (∀ response intent, canonicalResponseBytes response ≠ canonicalRotationBytes intent) ∧
    ∀ components components', lengthPrefixedJoin components = lengthPrefixedJoin components' →
      components = components' := by
  refine ⟨fun _ _ _ => frameFields_inj, fun request request' same => ?_,
    fun response response' same => ?_, fun intent intent' same => ?_,
    fun request response same => ?_, fun request intent same => ?_,
    fun response intent same => ?_, fun _ _ => lengthPrefixedJoin_inj⟩
  · obtain ⟨bytes, signed⟩ := canonicalRequestBytes_ok request'
    exact RequestEnvelope.eq_of_fields (frameFields_inj (same.trans signed) signed)
  · obtain ⟨bytes, signed⟩ := canonicalResponseBytes_ok response'
    exact ResponseEnvelope.eq_of_fields (frameFields_inj (same.trans signed) signed)
  · obtain ⟨bytes, signed⟩ := canonicalRotationBytes_ok intent'
    exact RotationIntent.eq_of_fields (frameFields_inj (same.trans signed) signed)
  · obtain ⟨bytes, signed⟩ := canonicalResponseBytes_ok response
    have fields := frameFields_inj (same.trans signed) signed
    cases congrArg List.length fields
  · obtain ⟨bytes, signed⟩ := canonicalRotationBytes_ok intent
    have fields := frameFields_inj (same.trans signed) signed
    have protocols := (List.cons.inj fields).1
    rw [request.protocol_literal, intent.protocol_literal] at protocols
    exact absurd protocols (by decide)
  · obtain ⟨bytes, signed⟩ := canonicalRotationBytes_ok intent
    have fields := frameFields_inj (same.trans signed) signed
    cases congrArg List.length fields

/-- A colon or a digit in a component does not move a boundary. -/
example : lengthPrefixedJoin ["a", "b:c"] ≠ lengthPrefixedJoin ["a:b", "c"] := by decide

end ComputeMarket.Principals
