import ComputeMarket.Shapes.Digests

/-!
# Constraints and their signatures

What an entry states of its fields beside its base shape, and when that is read. Where it is, its
signature (`constraintSignature`) tells the bounds that it states under each path.
-/

namespace ComputeMarket.Shapes

open Texts

variable {φ : Type}

/-! ## Readable mappings -/

variable {α : Type} {n : ℤ}

theorem positiveOf_eq_some {value : Document φ} :
    positiveOf value = some n ↔ value = .int n ∧ 0 < n := by
  cases value with
  | int m =>
    rw [positiveOf, Document.int.injEq]
    split
    next positive =>
      rw [Option.some.injEq]
      exact ⟨fun same => ⟨same, same ▸ positive⟩, And.left⟩
    next negative =>
    refine iff_of_false nofun fun both => ?_
    rw [both.1] at negative
    exact negative both.2
  | _ => exact iff_of_false nofun fun both => nomatch both.1

theorem unlessReported_eq_nil {p : Prop} [Decidable p] {problem : α} :
    (if p then [] else [problem]) = [] ↔ p := by
  split
  next holds => exact iff_of_true rfl holds
  next fails => exact iff_of_false (List.cons_ne_nil _ _) fails

theorem eitherReported_eq_nil {p q : Prop} [Decidable p] [Decidable q] {problem other : α} :
    (if p then [problem] else if q then [other] else []) = [] ↔ ¬p ∧ ¬q := by
  split
  next holds => exact iff_of_false (List.cons_ne_nil _ _) fun both => both.1 holds
  next fails =>
  split
  next holds => exact iff_of_false (List.cons_ne_nil _ _) fun both => both.2 holds
  next fails' => exact iff_of_true rfl ⟨fails, fails'⟩

/-- A constraint mapping without a problem: positive integers under known keys, one of them at
least, and in order. -/
structure ReadableMapping (mapping : List (Text × Document φ)) : Prop where
  stated : mapping ≠ []
  known : ∀ member ∈ mapping, member.1 ∈ listingKeys
  positive : ∀ member ∈ mapping, ∃ n : ℤ, 0 < n ∧ member.2 = .int n
  ordered : ∀ low high : ℤ, (minKey, .int low) ∈ mapping → (maxKey, .int high) ∈ mapping →
    low ≤ high
  above : ∀ low offer : ℤ, (minKey, .int low) ∈ mapping → (offerKey, .int offer) ∈ mapping →
    low ≤ offer
  below : ∀ high offer : ℤ, (maxKey, .int high) ∈ mapping → (offerKey, .int offer) ∈ mapping →
    offer ≤ high

section

variable {mapping : List (Text × Document φ)} (keys : (mapping.map Prod.fst).Nodup)

include keys

theorem readMember_eq_some {key : Text} :
    (findMember mapping key).bind positiveOf = some n ↔ (key, .int n) ∈ mapping ∧ 0 < n := by
  rw [Option.bind_eq_some_iff]
  constructor
  · intro found
    obtain ⟨value, found, positive⟩ := found
    obtain ⟨rfl, above⟩ := positiveOf_eq_some.mp positive
    exact ⟨mem_of_findMember found, above⟩
  · intro both
    exact ⟨_, (findMember_eq_some keys).mpr both.1, positiveOf_eq_some.mpr ⟨rfl, both.2⟩⟩

theorem positive_iff (known : ∀ member ∈ mapping, member.1 ∈ listingKeys) :
    (∀ key ∈ listingKeys, ∀ value, findMember mapping key = some value → positiveOf value ≠ none) ↔
      ∀ member ∈ mapping, ∃ n : ℤ, 0 < n ∧ member.2 = .int n := by
  constructor
  · intro each member inside
    have positive := each member.1 (known member inside) member.2
      ((findMember_eq_some keys).mpr inside)
    obtain ⟨n, read⟩ := Option.ne_none_iff_exists'.mp positive
    obtain ⟨same, positive⟩ := positiveOf_eq_some.mp read
    exact ⟨n, positive, same⟩
  · intro each key _ value found none
    obtain ⟨n, positive, same⟩ := each _ (mem_of_findMember found)
    rw [positiveOf_eq_some.mpr ⟨same, positive⟩] at none
    cases none

theorem inRange_iff (positive : ∀ member ∈ mapping, ∃ n : ℤ, 0 < n ∧ member.2 = .int n)
    {low high offer : Option ℤ} (isLow : (findMember mapping minKey).bind positiveOf = low)
    (isHigh : (findMember mapping maxKey).bind positiveOf = high)
    (isOffer : (findMember mapping offerKey).bind positiveOf = offer) :
    (¬(low.any fun low => high.any fun high => high < low) = true ∧
      ¬(offer.any fun offer => low.any (offer < ·) || high.any (· < offer)) = true) ↔
    (∀ low high : ℤ, (minKey, .int low) ∈ mapping → (maxKey, .int high) ∈ mapping → low ≤ high) ∧
    (∀ low offer : ℤ, (minKey, .int low) ∈ mapping → (offerKey, .int offer) ∈ mapping →
      low ≤ offer) ∧
    ∀ high offer : ℤ, (maxKey, .int high) ∈ mapping → (offerKey, .int offer) ∈ mapping →
      offer ≤ high := by
  have member : ∀ {key : Text} {read : Option ℤ},
      (findMember mapping key).bind positiveOf = read →
        ∀ n : ℤ, (key, .int n) ∈ mapping ↔ read = some n := by
    intro key read isRead n
    rw [← isRead, readMember_eq_some keys]
    refine ⟨fun inside => ⟨inside, ?_⟩, And.left⟩
    obtain ⟨m, above, same⟩ := positive _ inside
    cases same
    exact above
  simp only [member isLow, member isHigh, member isOffer]
  cases low <;> cases high <;> cases offer <;> simp

/-- **What `_constraint_problems` asks of a mapping.** -/
theorem constraintProblems_eq_nil {language : Language φ} {path tier : Text} {entries : List ℕ} :
    constraintProblems language path mapping listingKeys tier entries = [] ↔
      ReadableMapping mapping := by
  have hasMin : minKey ∈ listingKeys := by decide
  have hasMax : maxKey ∈ listingKeys := by decide
  have hasOffer : offerKey ∈ listingKeys := by decide
  have range := fun positive => inRange_iff keys positive rfl rfl rfl
  have unknown : ((mapping.map Prod.fst).filter (· ∉ listingKeys)).map
      (fun key => language.repr (.str key)) = [] ↔
        ∀ member ∈ mapping, member.1 ∈ listingKeys := by
    rw [List.map_eq_nil_iff, List.filter_eq_nil_iff, List.forall_mem_map]
    refine forall₂_congr fun member _ => ?_
    rw [decide_eq_true_eq, not_not]
  have positive := positive_iff keys
  revert range unknown positive
  cases mapping with
  | nil =>
    intro _ _ _
    exact iff_of_false (List.cons_ne_nil _ _) fun readable => readable.stated rfl
  | cons first rest =>
    intro range unknown positive
    unfold constraintProblems
    dsimp only
    rw [if_pos hasMin, if_pos hasMax, if_pos hasOffer, List.append_eq_nil_iff,
      List.append_eq_nil_iff, List.append_eq_nil_iff, unlessReported_eq_nil,
      eitherReported_eq_nil, unknown, List.flatMap_eq_nil_iff,
      if_neg fun both : _ ∧ offerKey ∉ listingKeys => both.2 hasOffer]
    constructor
    · rintro ⟨⟨⟨known, -⟩, values⟩, inside⟩
      have each : ∀ key ∈ listingKeys, ∀ value, findMember (first :: rest) key = some value →
          positiveOf value ≠ none := by
        intro key listed value found none
        have silent := values key listed
        rw [found] at silent
        dsimp only at silent
        rw [none] at silent
        cases silent
      have positive := (positive known).mp each
      obtain ⟨ordered, above, below⟩ := (range positive).mp inside
      exact ⟨List.cons_ne_nil _ _, known, positive, ordered, above, below⟩
    · intro readable
      refine ⟨⟨⟨readable.known, rfl⟩, fun key listed => ?_⟩,
        (range readable.positive).mpr ⟨readable.ordered, readable.above, readable.below⟩⟩
      have each := (positive readable.known).mpr readable.positive key listed
      cases found : findMember (first :: rest) key with
      | none => rfl
      | some value =>
        obtain ⟨n, read⟩ := Option.ne_none_iff_exists'.mp (each value found)
        dsimp only
        rw [read]

end

/-! ## What an entry states of its fields -/

variable {item : Place × List (Text × Document φ)}

theorem mem_constrainedOf {raw : Document φ} {place : Place} {mapping : List (Text × Document φ)} :
    (place, mapping) ∈ constrainedOf raw ↔
      States raw place.1 place.2 (.obj mapping) ∧ place.2 ≠ [] := by
  have field : ∀ {family : Text} {entry : Text × Document φ},
      constrainedField family entry = some (place, mapping) ↔
        (family = place.1 ∧ entry = (place.2, .obj mapping)) ∧ place.2 ≠ [] := by
    intro family entry
    obtain ⟨name, value⟩ := entry
    unfold constrainedField
    dsimp only
    split
    next other =>
      split
      next empty =>
        refine iff_of_false nofun fun all => all.2 ?_
        rw [← (Prod.mk.inj all.1.2).1, empty]
      next named =>
      constructor
      · intro same
        cases same
        exact ⟨⟨rfl, rfl⟩, named⟩
      · intro all
        obtain ⟨⟨rfl, same⟩, -⟩ := all
        cases same
        rfl
    next other =>
      refine iff_of_false nofun fun all => ?_
      exact other mapping (Prod.mk.inj all.1.2).2
  rw [constrainedOf, List.mem_flatMap, states_iff]
  constructor
  · intro found
    obtain ⟨member, inside, found⟩ := found
    obtain ⟨entry, present, found⟩ := List.mem_filterMap.mp found
    obtain ⟨⟨family, rfl⟩, named⟩ := field.mp found
    refine ⟨⟨member.2, ?_, present⟩, named⟩
    rw [← family]
    exact inside
  · intro found
    obtain ⟨⟨fields, inside, present⟩, named⟩ := found
    exact ⟨_, inside, List.mem_filterMap.mpr ⟨_, present, field.mpr ⟨⟨rfl, rfl⟩, named⟩⟩⟩

theorem constrainedField_fst {family : Text} {entry : Text × Document φ}
    (found : constrainedField family entry = some item) :
    item.1 = (family, entry.1) := by
  unfold constrainedField at found
  split at found
  · split at found
    · cases found
    · cases found
      rfl
  · cases found

theorem nodup_constrainedOf {raw : Document φ} (orderly : Orderly raw) :
    ((constrainedOf raw).map Prod.fst).Nodup := by
  rw [constrainedOf, List.map_flatMap, List.nodup_flatMap]
  constructor
  · intro member inside
    have fields : ((membersOf member.2).map fun entry => (member.1, entry.1)).Nodup := by
      have keys := (orderly.member inside).keys
      rw [← Function.comp_def (Prod.mk member.1) Prod.fst, ← List.map_map]
      exact keys.map (Prod.mk_right_injective member.1)
    exact fields.sublist (keys_filterMap_sublist constrainedField_fst)
  · have apart := List.pairwise_map.mp orderly.keys
    refine apart.imp fun {first second} differ => ?_
    intro place inside inside'
    obtain ⟨item, found, rfl⟩ := List.mem_map.mp inside
    obtain ⟨item', found', same⟩ := List.mem_map.mp inside'
    obtain ⟨entry, -, found⟩ := List.mem_filterMap.mp found
    obtain ⟨entry', -, found'⟩ := List.mem_filterMap.mp found'
    rw [constrainedField_fst found, constrainedField_fst found'] at same
    exact differ (Prod.mk.inj same).1.symm

/-- The entry states a value of a field beside its base shape: a bound, where it is read. -/
def Constrains (raw : Document φ) (place : Place) (key : Text) (value : Document φ) : Prop :=
  ∃ mapping, (place, mapping) ∈ constrainedOf raw ∧ (key, value) ∈ mapping ∧ key ≠ offerKey

def SameConstraints (first second : Document φ) : Prop :=
  ∀ place key value, Constrains first place key value ↔ Constrains second place key value

/-- Every constraint of the entry is read: its mapping has no problem and, under a schema, it is
of a quantity. -/
def ReadableConstraints (schema : Option CapabilitySchema) (raw : Document φ) : Prop :=
  ∀ item ∈ constrainedOf raw,
    (∀ given, schema = some given → isQuantity given item.1 = true) ∧ ReadableMapping item.2

theorem Orderly.mapping {raw : Document φ} (orderly : Orderly raw)
    (inside : item ∈ constrainedOf raw) :
    Orderly (.obj item.2) :=
  orderly.states (mem_constrainedOf.mp inside).1

/-- **What a split asks of the constraints of an entry.** -/
theorem itemProblems_eq_nil {language : Language φ} {schema : Option CapabilitySchema}
    {raw : Document φ} {tier : Text} {entries : List ℕ} (orderly : Orderly raw) :
    (constrainedOf raw).flatMap (itemProblems language tier schema entries) = [] ↔
      ReadableConstraints schema raw := by
  rw [List.flatMap_eq_nil_iff]
  refine forall₂_congr fun item inside => ?_
  have keys : (item.2.map Prod.fst).Nodup := (orderly.mapping inside).keys
  unfold itemProblems
  dsimp only
  cases schema with
  | none =>
    rw [Option.any_none, if_neg Bool.false_ne_true, constraintProblems_eq_nil keys]
    exact (and_iff_right nofun).symm
  | some given =>
    rw [Option.any_some]
    cases quantity : isQuantity given item.1 with
    | false =>
      refine iff_of_false (List.cons_ne_nil _ _) fun both => ?_
      rw [both.1 given rfl] at quantity
      cases quantity
    | true =>
      rw [if_neg (by decide), constraintProblems_eq_nil keys]
      refine (and_iff_right fun other same => ?_).symm
      cases same
      exact quantity

/-! ## Bounds -/

theorem statedBounds_eq_some {mapping : List (Text × Document φ)} {bounds : StatedBounds} :
    statedBounds mapping = some bounds ↔
      (findMember mapping minKey).bind positiveOf = bounds.minimum ∧
      (findMember mapping maxKey).bind positiveOf = bounds.maximum ∧
      (bounds.minimum ≠ none ∨ bounds.maximum ≠ none) := by
  unfold statedBounds
  obtain ⟨minimum, maximum⟩ := bounds
  generalize (findMember mapping minKey).bind positiveOf = low
  generalize (findMember mapping maxKey).bind positiveOf = high
  constructor
  · intro same
    cases low with
    | none =>
      cases high with
      | none => cases same
      | some high =>
        cases same
        exact ⟨rfl, rfl, .inr (Option.some_ne_none _)⟩
    | some low =>
      cases high <;> cases same <;> exact ⟨rfl, rfl, .inl (Option.some_ne_none _)⟩
  · intro all
    obtain ⟨rfl, rfl, filled⟩ := all
    cases low with
    | none =>
      cases high with
      | none => exact (filled.elim (fun some' => some' rfl) fun some' => some' rfl).elim
      | some high => rfl
    | some low => cases high <;> rfl

section

variable {raw : Document φ} (orderly : Orderly raw)

include orderly

theorem constrains_iff {place : Place} {mapping : List (Text × Document φ)}
    (inside : (place, mapping) ∈ constrainedOf raw) {key : Text} {value : Document φ} :
    Constrains raw place key value ↔ (key, value) ∈ mapping ∧ key ≠ offerKey := by
  constructor
  · intro stated
    obtain ⟨other, inside', present⟩ := stated
    have same := List.inj_on_of_nodup_map (nodup_constrainedOf orderly) inside inside' rfl
    cases same
    exact present
  · intro present
    exact ⟨mapping, inside, present⟩

theorem readMember_iff_constrains {schema : Option CapabilitySchema}
    (readable : ReadableConstraints schema raw) {place : Place}
    {mapping : List (Text × Document φ)} (inside : (place, mapping) ∈ constrainedOf raw)
    {key : Text} (bound : key ≠ offerKey) (n : ℤ) :
    (findMember mapping key).bind positiveOf = some n ↔ Constrains raw place key (.int n) := by
  have keys : (mapping.map Prod.fst).Nodup := (orderly.mapping inside).keys
  rw [readMember_eq_some keys, constrains_iff orderly inside]
  constructor
  · intro both
    exact ⟨both.1, bound⟩
  · intro both
    obtain ⟨m, positive, same⟩ := (readable _ inside).2.positive _ both.1
    cases same
    exact ⟨both.1, positive⟩

/-- **The bounds of a field are the values that are stated of it.** -/
theorem mem_constraintsOf {schema : Option CapabilitySchema}
    (readable : ReadableConstraints schema raw) {place : Place} {bounds : StatedBounds} :
    (place, bounds) ∈ constraintsOf raw ↔
      (∃ key value, Constrains raw place key value) ∧
      (∀ n, bounds.minimum = some n ↔ Constrains raw place minKey (.int n)) ∧
      ∀ n, bounds.maximum = some n ↔ Constrains raw place maxKey (.int n) := by
  have isMin : minKey ≠ offerKey := by decide
  have isMax : maxKey ≠ offerKey := by decide
  have read := fun {mapping} (inside : (place, mapping) ∈ constrainedOf raw) {key} =>
    @readMember_iff_constrains _ _ orderly _ readable place mapping inside key
  constructor
  · intro found
    obtain ⟨item, inside, found⟩ := List.mem_filterMap.mp found
    obtain ⟨other, stated, same⟩ := Option.map_eq_some_iff.mp found
    cases same
    obtain ⟨low, high, filled⟩ := statedBounds_eq_some.mp stated
    have lows := read inside isMin
    have highs := read inside isMax
    rw [low] at lows
    rw [high] at highs
    refine ⟨?_, lows, highs⟩
    rcases filled with filled | filled
    · obtain ⟨n, isLow⟩ := Option.ne_none_iff_exists'.mp filled
      exact ⟨_, _, (lows n).mp isLow⟩
    · obtain ⟨n, isHigh⟩ := Option.ne_none_iff_exists'.mp filled
      exact ⟨_, _, (highs n).mp isHigh⟩
  · intro all
    obtain ⟨⟨key, value, stated⟩, lows, highs⟩ := all
    obtain ⟨mapping, inside, present, bound⟩ := stated
    have low : (findMember mapping minKey).bind positiveOf = bounds.minimum :=
      Option.ext fun n => (read inside isMin n).trans (lows n).symm
    have high : (findMember mapping maxKey).bind positiveOf = bounds.maximum :=
      Option.ext fun n => (read inside isMax n).trans (highs n).symm
    have known := (readable _ inside).2.known _ present
    obtain ⟨n, positive, same⟩ := (readable _ inside).2.positive _ present
    have stated : Constrains raw place key value := ⟨mapping, inside, present, bound⟩
    refine List.mem_filterMap.mpr ⟨(place, mapping), inside, ?_⟩
    rw [statedBounds_eq_some.mpr ⟨low, high, ?_⟩]
    · rfl
    · dsimp only at same
      rw [same] at stated
      unfold listingKeys at known
      simp only [List.mem_cons, List.not_mem_nil, or_false] at known
      rcases known with offer | rfl | rfl
      · exact absurd offer bound
      · exact .inl (Option.ne_none_iff_exists'.mpr ⟨n, (lows n).mpr stated⟩)
      · exact .inr (Option.ne_none_iff_exists'.mpr ⟨n, (highs n).mpr stated⟩)

end

variable {first second : Document φ}

theorem constrains_iff_bounds {schema : Option CapabilitySchema} {raw : Document φ}
    (orderly : Orderly raw) (readable : ReadableConstraints schema raw) {place : Place}
    {key : Text} {value : Document φ} :
    Constrains raw place key value ↔ ∃ bounds, (place, bounds) ∈ constraintsOf raw ∧
      ∃ n : ℤ, value = .int n ∧
        (key = minKey ∧ bounds.minimum = some n ∨ key = maxKey ∧ bounds.maximum = some n) := by
  constructor
  · intro stated
    obtain ⟨mapping, inside, present, bound⟩ := id stated
    obtain ⟨n, -, same⟩ := (readable _ inside).2.positive _ present
    have known := (readable _ inside).2.known _ present
    dsimp only at same known
    obtain rfl := same
    have read := fun {key} => @readMember_iff_constrains _ _ orderly _ readable _ _ inside key
    have isMin : minKey ≠ offerKey := by decide
    have isMax : maxKey ≠ offerKey := by decide
    refine ⟨⟨(findMember mapping minKey).bind positiveOf,
      (findMember mapping maxKey).bind positiveOf⟩, (mem_constraintsOf orderly readable).mpr
        ⟨⟨_, _, stated⟩, read isMin, read isMax⟩, n, rfl, ?_⟩
    unfold listingKeys at known
    simp only [List.mem_cons, List.not_mem_nil, or_false] at known
    rcases known with offer | rfl | rfl
    · exact absurd offer bound
    · exact .inl ⟨rfl, (read isMin n).mpr stated⟩
    · exact .inr ⟨rfl, (read isMax n).mpr stated⟩
  · intro found
    obtain ⟨bounds, inside, n, rfl, which⟩ := found
    obtain ⟨-, lows, highs⟩ := (mem_constraintsOf orderly readable).mp inside
    rcases which with ⟨rfl, low⟩ | ⟨rfl, high⟩
    · exact (lows n).mp low
    · exact (highs n).mp high

/-- **Two readable entries state the same constraints where they state the same bounds.** -/
theorem sameConstraints_iff {schema : Option CapabilitySchema} (orderly : Orderly first)
    (orderly' : Orderly second) (readable : ReadableConstraints schema first)
    (readable' : ReadableConstraints schema second) :
    SameConstraints first second ↔ ∀ item, item ∈ constraintsOf first ↔ item ∈ constraintsOf second := by
  constructor
  · intro same item
    unfold SameConstraints at same
    rw [mem_constraintsOf orderly readable, mem_constraintsOf orderly' readable']
    simp only [same]
  · intro same place key value
    rw [constrains_iff_bounds orderly readable, constrains_iff_bounds orderly' readable']
    simp only [same]

theorem nodup_constraintsOf {raw : Document φ} (orderly : Orderly raw) :
    ((constraintsOf raw).map Prod.fst).Nodup := by
  refine (nodup_constrainedOf orderly).sublist (keys_filterMap_sublist fun {item kept} left => ?_)
  obtain ⟨bounds, -, rfl⟩ := Option.map_eq_some_iff.mp left
  rfl

/-! ## Signatures -/

section

variable {language : Language φ}

def membersOfBounds (bounds : StatedBounds) : List (Text × Document φ) :=
  (bounds.maximum.map fun n => (maxKey, Document.int n)).toList ++
    (bounds.minimum.map fun n => (minKey, Document.int n)).toList

def boundsCode (bounds : StatedBounds) : List (Text ×ₗ Text) :=
  (bounds.maximum.map fun n => toLex (points "'max'", intCode n)).toList ++
    (bounds.minimum.map fun n => toLex (points "'min'", intCode n)).toList

theorem map_membersOfBounds (bounds : StatedBounds) :
    ((membersOfBounds bounds).map fun member =>
      toLex (language.repr (.str member.1), language.repr member.2)) = boundsCode bounds := by
  obtain ⟨minimum, maximum⟩ := bounds
  unfold membersOfBounds boundsCode
  cases minimum <;> cases maximum <;>
    simp [minKey, maxKey, language.repr_min, language.repr_max, language.repr_int]

theorem boundsCode_sorted (bounds : StatedBounds) : (boundsCode bounds).Pairwise (· ≤ ·) := by
  obtain ⟨minimum, maximum⟩ := bounds
  have before : points "'max'" < points "'min'" := by decide
  unfold boundsCode
  cases minimum with
  | none => cases maximum <;> simp
  | some low =>
    cases maximum with
    | none => simp
    | some high =>
      have less : toLex (points "'max'", intCode high) ≤ toLex (points "'min'", intCode low) :=
        Prod.Lex.toLex_le_toLex.mpr (.inl before)
      simp [less]

theorem mem_boundsCode {bounds : StatedBounds} {key : Text} :
    toLex (key, intCode n) ∈ boundsCode bounds ↔
      key = points "'max'" ∧ bounds.maximum = some n ∨
        key = points "'min'" ∧ bounds.minimum = some n := by
  have one : ∀ {stated : Option ℤ} {shown : Text},
      toLex (key, intCode n) ∈ (stated.map fun m => toLex (shown, intCode m)).toList ↔
        key = shown ∧ stated = some n := by
    intro stated shown
    rw [Option.mem_toList, Option.map_eq_some_iff]
    constructor
    · intro found
      obtain ⟨m, rfl, same⟩ := found
      obtain ⟨keys, codes⟩ := Prod.mk.inj (toLex.injective same)
      exact ⟨keys.symm, congrArg some (intCode_inj codes)⟩
    · intro both
      exact ⟨n, both.2, by rw [both.1]⟩
  unfold boundsCode
  rw [List.mem_append, one, one]

theorem boundsCode_injective : Function.Injective boundsCode := by
  intro first second same
  have apart : points "'max'" ≠ points "'min'" := by decide
  have high : ∀ {bounds : StatedBounds} {n : ℤ},
      toLex (points "'max'", intCode n) ∈ boundsCode bounds ↔ bounds.maximum = some n := by
    intro bounds n
    rw [mem_boundsCode]
    simp [apart]
  have low : ∀ {bounds : StatedBounds} {n : ℤ},
      toLex (points "'min'", intCode n) ∈ boundsCode bounds ↔ bounds.minimum = some n := by
    intro bounds n
    rw [mem_boundsCode]
    simp [apart.symm]
  have highs : first.maximum = second.maximum :=
    Option.ext fun n => high.symm.trans (same ▸ high)
  have lows : first.minimum = second.minimum :=
    Option.ext fun n => low.symm.trans (same ▸ low)
  obtain ⟨minimum, maximum⟩ := first
  obtain ⟨minimum', maximum'⟩ := second
  cases highs
  cases lows
  rfl

theorem insertionSort_eq_iff [LinearOrder α] {first second : List α} :
    first.insertionSort (· ≤ ·) = second.insertionSort (· ≤ ·) ↔ first.Perm second := by
  have perm := List.perm_insertionSort (fun a b : α => a ≤ b)
  constructor
  · intro same
    exact (perm first).symm.trans (same ▸ perm second)
  · intro same
    refine ((perm first).trans (same.trans (perm second).symm)).eq_of_pairwise
      (fun a b _ _ le ge => le_antisymm le ge) ?_ ?_
    · exact List.pairwise_insertionSort _ _
    · exact List.pairwise_insertionSort _ _

theorem statedMembers_perm {mapping : List (Text × Document φ)}
    (keys : (mapping.map Prod.fst).Nodup) (readable : ReadableMapping mapping)
    {bounds : StatedBounds} (low : (findMember mapping minKey).bind positiveOf = bounds.minimum)
    (high : (findMember mapping maxKey).bind positiveOf = bounds.maximum) :
    (mapping.filter fun member => member.1 ≠ offerKey).Perm (membersOfBounds bounds) := by
  have isMin : minKey ≠ offerKey := by decide
  have isMax : maxKey ≠ offerKey := by decide
  have apart : maxKey ≠ minKey := by decide
  have read : ∀ {key : Text} {stated : Option ℤ},
      (findMember mapping key).bind positiveOf = stated →
        ∀ n : ℤ, stated = some n ↔ (key, .int n) ∈ mapping := by
    intro key stated isRead n
    rw [← isRead, readMember_eq_some keys]
    refine ⟨And.left, fun inside => ⟨inside, ?_⟩⟩
    obtain ⟨m, positive, same⟩ := readable.positive _ inside
    cases same
    exact positive
  have distinct : (membersOfBounds (φ := φ) bounds).Nodup := by
    unfold membersOfBounds
    cases bounds.maximum <;> cases bounds.minimum <;> simp [apart]
  refine (List.perm_ext_iff_of_nodup (keys.of_map.filter _) distinct).mpr fun member => ?_
  unfold membersOfBounds
  rw [List.mem_filter, decide_eq_true_eq, List.mem_append, Option.mem_toList, Option.mem_toList,
    Option.map_eq_some_iff, Option.map_eq_some_iff]
  constructor
  · intro both
    obtain ⟨inside, bound⟩ := both
    obtain ⟨n, -, same⟩ := readable.positive _ inside
    obtain ⟨key, value⟩ := member
    obtain rfl : value = .int n := same
    have known := readable.known _ inside
    unfold listingKeys at known
    simp only [List.mem_cons, List.not_mem_nil, or_false] at known
    rcases known with offer | rfl | rfl
    · exact absurd offer bound
    · exact .inr ⟨n, (read low n).mpr inside, rfl⟩
    · exact .inl ⟨n, (read high n).mpr inside, rfl⟩
  · intro found
    rcases found with ⟨n, stated, rfl⟩ | ⟨n, stated, rfl⟩
    · exact ⟨(read high n).mp stated, isMax⟩
    · exact ⟨(read low n).mp stated, isMin⟩

theorem signatureItem_eq (keys : (item.2.map Prod.fst).Nodup) (readable : ReadableMapping item.2) :
    signatureItem language item = (statedBounds item.2).map fun bounds =>
      toLex (pathOf item.1.1 item.1.2, boundsCode bounds) := by
  generalize isBounds : StatedBounds.mk ((findMember item.2 minKey).bind positiveOf)
    ((findMember item.2 maxKey).bind positiveOf) = bounds
  have low : (findMember item.2 minKey).bind positiveOf = bounds.minimum := by rw [← isBounds]
  have high : (findMember item.2 maxKey).bind positiveOf = bounds.maximum := by rw [← isBounds]
  have stated : ((item.2.filter fun member => member.1 ≠ offerKey).map fun member =>
      toLex (language.repr (.str member.1), language.repr member.2)).insertionSort (· ≤ ·) =
        boundsCode bounds := by
    have perm := (statedMembers_perm keys readable low high).map fun member =>
      toLex (language.repr (.str member.1), language.repr member.2)
    rw [map_membersOfBounds] at perm
    rw [insertionSort_eq_iff.mpr perm]
    exact (boundsCode_sorted bounds).insertionSort_eq
  have filled : item.2.isEmpty = false := by
    rw [List.isEmpty_eq_false_iff]
    exact readable.stated
  unfold signatureItem
  dsimp only
  rw [stated, filled]
  by_cases bare : bounds.minimum = none ∧ bounds.maximum = none
  · have code : boundsCode bounds = [] := by
      unfold boundsCode
      rw [bare.1, bare.2]
      rfl
    have none : statedBounds item.2 = .none := by
      unfold statedBounds
      rw [low, high, bare.1, bare.2]
    rw [none, if_neg (by simp [code])]
    rfl
  · have some' : bounds.minimum ≠ none ∨ bounds.maximum ≠ none := by
      by_contra neither
      push Not at neither
      exact bare neither
    have code : boundsCode bounds ≠ [] := by
      rcases some' with some' | some'
      · obtain ⟨n, isLow⟩ := Option.ne_none_iff_exists'.mp some'
        exact List.ne_nil_of_mem (mem_boundsCode.mpr (.inr ⟨rfl, isLow⟩))
      · obtain ⟨n, isHigh⟩ := Option.ne_none_iff_exists'.mp some'
        exact List.ne_nil_of_mem (mem_boundsCode.mpr (.inl ⟨rfl, isHigh⟩))
    rw [statedBounds_eq_some.mpr ⟨low, high, some'⟩, if_pos (.inl code)]
    rfl

def pathBounds (raw : Document φ) : List (Text × StatedBounds) :=
  (constraintsOf raw).map fun item => (pathOf item.1.1 item.1.2, item.2)

/-- **The signature of a readable entry is that of the bounds under each path.** -/
theorem constraintSignature_eq {schema : Option CapabilitySchema} {raw : Document φ}
    (orderly : Orderly raw) (readable : ReadableConstraints schema raw) :
    constraintSignature language raw =
      ((pathBounds raw).map fun item => toLex (item.1, boundsCode item.2)).insertionSort (· ≤ ·) := by
  have each : ∀ item ∈ constrainedOf raw, signatureItem language item =
      (statedBounds item.2).map fun bounds => toLex (pathOf item.1.1 item.1.2, boundsCode bounds) :=
    fun item inside => signatureItem_eq (orderly.mapping inside).keys (readable item inside).2
  unfold constraintSignature pathBounds constraintsOf
  rw [List.filterMap_congr each, List.map_map, List.map_filterMap]
  simp only [Option.map_map]
  rfl

theorem constraintSignature_eq_iff {schema : Option CapabilitySchema} (orderly : Orderly first)
    (orderly' : Orderly second) (readable : ReadableConstraints schema first)
    (readable' : ReadableConstraints schema second) :
    constraintSignature language first = constraintSignature language second ↔
      (pathBounds first).Perm (pathBounds second) := by
  have injective : Function.Injective fun item : Text × StatedBounds =>
      toLex (item.1, boundsCode item.2) := by
    intro item other same
    obtain ⟨paths, codes⟩ := Prod.mk.inj (toLex.injective same)
    exact Prod.ext paths (boundsCode_injective codes)
  rw [constraintSignature_eq orderly readable, constraintSignature_eq orderly' readable',
    insertionSort_eq_iff, List.map_perm_map_iff injective]

theorem SameConstraints.pathBounds_perm {schema : Option CapabilitySchema}
    (same : SameConstraints first second) (orderly : Orderly first) (orderly' : Orderly second)
    (readable : ReadableConstraints schema first) (readable' : ReadableConstraints schema second) :
    (pathBounds first).Perm (pathBounds second) := by
  refine List.Perm.map _ ((List.perm_ext_iff_of_nodup ?_ ?_).mpr
    ((sameConstraints_iff orderly orderly' readable readable').mp same))
  · exact (nodup_constraintsOf orderly).of_map
  · exact (nodup_constraintsOf orderly').of_map

end

end ComputeMarket.Shapes
