import ComputeMarket.Buyer.Policies
import ComputeMarket.Library.Run

/-!
# The buyer's shape guard

`buyer_escrow_shape_guard` of `scalar_policies.py` with the normalizations it compares under.
It passes exactly where the seller's proposal agrees with the pinned one in what it compares,
`CheckedSame`. A proposal is `Unchanged` where it agrees besides in what the guard does not
compare, `UncheckedSame`: an address or an expiration that only one side carries, a field that
only the seller names, `literal_fields` and `rates`.
-/

namespace ComputeMarket.Buyer

inductive Raised
  | type
  /-- `ValueError`. -/
  | value

/-- `str.strip`. -/
def stripped (s : String) : String :=
  String.ofList (Middleware.strip Middleware.pythonSpace s.toList)

/-- The number a text of digits states, single underscores between them left out. -/
def digitsValue (chars : List Char) : Option ℕ :=
  let groups := chars.splitOn '_'
  if groups.all fun group => !group.isEmpty && group.all Char.isDigit then
    some (Nat.ofDigitChars 10 groups.flatten 0)
  else none

/-- `int` of a text of ASCII digits. -/
def intOfText (s : String) : Option ℤ :=
  match Middleware.strip Middleware.pythonSpace s.toList with
  | '-' :: digits => (digitsValue digits).map fun n => -(n : ℤ)
  | '+' :: digits => (digitsValue digits).map Nat.cast
  | digits => (digitsValue digits).map Nat.cast

/-- `int`. -/
def intOf : Json → Except Raised ℤ
  | .bool b => .ok (if b then 1 else 0)
  | .int i => .ok i
  | .float q => .ok (q.num.tdiv q.den)
  | .str s => (intOfText s).elim (.error .value) .ok
  | .null | .list _ | .obj _ => .error .type

def normalizeEscrowField : Json → Json
  | .str text =>
    if text.startsWith "0x" ∧ text.length = 42 then .str text.toLower else .str text
  | value => value

/-- `_normalize_exact_value`, of a text: ASCII digits are a number. -/
def normalizeExactText (text : String) : Json :=
  let bare := stripped text
  if bare.startsWith "0x" then .str bare.toLower
  else if bare ≠ "" ∧ bare.toList.all Char.isDigit then .int (Nat.ofDigitChars 10 bare.toList 0)
  else .str text

mutual

def normalizeExactValue : Json → Json
  | .obj members => .obj (normalizeExactMembers members)
  | .list items => .list (normalizeExactItems items)
  | .str text => normalizeExactText text
  | value => value

def normalizeExactItems : List Json → List Json
  | [] => []
  | item :: rest => normalizeExactValue item :: normalizeExactItems rest

def normalizeExactMembers : Fields Json → Fields Json
  | [] => []
  | (key, value) :: rest => Fields.place key (normalizeExactValue value) (normalizeExactMembers rest)

end

/-- `_normalize_selected_demand`, with the text of the `ValueError` it may raise. -/
def normalizeSelectedDemand (loads : Loads) (proposal : Proposal) : Except String Json :=
  match Json.get proposal "demand" with
  | .obj selected => .ok (normalizeExactValue (.obj selected))
  | _ =>
    match loadsJsonList loads (Json.get proposal "demands") with
    | [] => .ok .null
    | [.obj selected] => .ok (normalizeExactValue (.obj selected))
    | [_] => .ok .null
    | _ => .error "deprecated proposal demands[] may contain at most one selected demand"

example : (normalizeExactValue (.obj [("b", .list [.str " 12 "]), ("a", .str "0xAB")])).Same
    (.obj [("a", .str "0xab"), ("b", .list [.int 12])]) := by decide +kernel

/-! ## The guard -/

section

variable (repr : Json → String) (loads : Loads)

/-- `str`. -/
def textOf : Json → String
  | .str text => text
  | value => repr value

/-- `(value or "").lower()`. -/
def addressOf (value : Json) : Except BuyerError String :=
  if value.truthy then
    match value with
    | .str text => .ok text.toLower
    | _ => .error .type
  else .ok ""

/-- `int(value)` of an expiration. -/
def expirationOf (value : Json) : Except BuyerError ℤ :=
  (intOf value).mapError fun
    | .value => .value "invalid literal for int() with base 10"
    | _ => .type

def membersOfFields (proposal : Proposal) : Option (Fields Json) :=
  match fieldsOf proposal with
  | .obj members => some members
  | _ => none

def rejecting (reason : String) : Option NegotiationDecision := some ⟨.reject, none, some reason⟩

/-- Whether both sides state an expiration and not the same one. -/
def expirationChanged (pinned theirs : Json) : Except BuyerError Bool :=
  if pinned ≠ .null ∧ theirs ≠ .null then do
    let ours ← expirationOf pinned
    let others ← expirationOf theirs
    pure (decide (ours ≠ others))
  else .ok false

/-- The loop over the pinned fields: the first, by its key, that the other side states
otherwise. -/
def fieldChange (pinned : Fields Json) (theirs : Option (Fields Json)) :
    List String → Option NegotiationDecision
  | [] => none
  | key :: rest =>
    let ours := Json.get pinned key
    let others := (theirs.map fun members => Json.get members key).getD .null
    if key = "amount" ∨ (normalizeEscrowField ours).Same (normalizeEscrowField others) then
      fieldChange pinned theirs rest
    else
      rejecting ("escrow_field_changed:" ++ repr (.str key) ++ ":" ++ repr ours ++ "->" ++
        repr others)

def demandChange (pinned theirs : Proposal) : Option NegotiationDecision :=
  match normalizeSelectedDemand loads pinned, normalizeSelectedDemand loads theirs with
  | .error text, _ | .ok _, .error text => rejecting ("invalid_selected_demand:" ++ text)
  | .ok ours, .ok others =>
    if ours.Same others then none
    else rejecting ("demand_changed:" ++ repr ours ++ "->" ++ repr others)

/-- The comparisons of `buyer_escrow_shape_guard`, of two proposals. -/
def shapeChange (pinned theirs : Proposal) : Except BuyerError (Option NegotiationDecision) := do
  if ¬(normalizeExactValue (Json.get pinned "settlement_selection")).Same
      (normalizeExactValue (Json.get theirs "settlement_selection")) then
    return rejecting "settlement_selection_changed"
  if ¬(Json.get pinned "chain_name").Same (Json.get theirs "chain_name") then
    return rejecting ("chain_name_changed:" ++ repr (Json.get pinned "chain_name") ++ "->" ++
      repr (Json.get theirs "chain_name"))
  let pinnedAddr ← addressOf (Json.get pinned "escrow_address")
  let theirAddr ← addressOf (Json.get theirs "escrow_address")
  if pinnedAddr ≠ "" ∧ theirAddr ≠ "" ∧ pinnedAddr ≠ theirAddr then
    return rejecting ("escrow_address_changed:" ++ repr (Json.get pinned "escrow_address") ++ "->" ++
      repr (Json.get theirs "escrow_address"))
  if ← expirationChanged (Json.get pinned "expiration_unix") (Json.get theirs "expiration_unix") then
    return rejecting ("expiration_unix_changed:" ++ textOf repr (Json.get pinned "expiration_unix") ++
      "->" ++ textOf repr (Json.get theirs "expiration_unix"))
  match membersOfFields pinned with
  | none => throw .type
  | some pinnedFields =>
    match fieldChange repr pinnedFields (membersOfFields theirs) (pinnedFields.map Prod.fst) with
    | some decision => return some decision
    | none => return demandChange repr loads pinned theirs

def buyerEscrowShapeGuard : NegotiationMiddleware := fun history context =>
  match theirLastProposal history, context.ourEscrowProposal with
  | some theirs, some pinned => do
      let decision ← shapeChange repr loads pinned theirs
      pure (decision, context)
  | _, _ => .ok (none, context)

end

/-! ## What the guard compares -/

section

variable {repr : Json → String} (loads : Loads)

def SameExpiration (first second : Json) : Prop :=
  ∃ unix, expirationOf first = .ok unix ∧ expirationOf second = .ok unix

/-- The other side states a pinned field as it is pinned, a missing one counting as null. -/
def KeepsField (pinned : Fields Json) (theirs : Option (Fields Json)) (key : String) : Prop :=
  (normalizeEscrowField (Json.get pinned key)).Same
    (normalizeEscrowField ((theirs.map fun members => Json.get members key).getD .null))

def SameDemand (pinned theirs : Proposal) : Prop :=
  ∃ ours others, normalizeSelectedDemand loads pinned = .ok ours ∧
    normalizeSelectedDemand loads theirs = .ok others ∧ ours.Same others

/-- The proposals agree in all that the guard compares: an address and an expiration only where
both carry one. -/
structure CheckedSame (pinned theirs : Proposal) : Prop where
  selection : (normalizeExactValue (Json.get pinned "settlement_selection")).Same
    (normalizeExactValue (Json.get theirs "settlement_selection"))
  chain : (Json.get pinned "chain_name").Same (Json.get theirs "chain_name")
  address : ∃ ours others, addressOf (Json.get pinned "escrow_address") = .ok ours ∧
    addressOf (Json.get theirs "escrow_address") = .ok others ∧
    (ours ≠ "" → others ≠ "" → ours = others)
  expiration : Json.get pinned "expiration_unix" ≠ .null →
    Json.get theirs "expiration_unix" ≠ .null →
    SameExpiration (Json.get pinned "expiration_unix") (Json.get theirs "expiration_unix")
  fields : ∃ ours, fieldsOf pinned = .obj ours ∧
    ∀ key ∈ ours.map Prod.fst, key ≠ "amount" → KeepsField ours (membersOfFields theirs) key
  demand : SameDemand loads pinned theirs

structure UncheckedSame (pinned theirs : Proposal) : Prop where
  address : addressOf (Json.get pinned "escrow_address") = .ok "" ↔
    addressOf (Json.get theirs "escrow_address") = .ok ""
  expiration : Json.get pinned "expiration_unix" = .null ↔ Json.get theirs "expiration_unix" = .null
  fields : ∃ others, fieldsOf theirs = .obj others ∧ ∀ ours, fieldsOf pinned = .obj ours →
    ∀ key ≠ "amount", (Fields.find ours key).isSome = (Fields.find others key).isSome
  literalFields : (normalizeExactValue (Json.get pinned "literal_fields")).Same
    (normalizeExactValue (Json.get theirs "literal_fields"))
  rates : (normalizeExactValue (Json.get pinned "rates")).Same
    (normalizeExactValue (Json.get theirs "rates"))

/-- Both sides carry a field, or neither does, and with the same value. -/
def SameField : Option Json → Option Json → Prop
  | some ours, some others => (normalizeEscrowField ours).Same (normalizeEscrowField others)
  | none, none => True
  | _, _ => False

/-- The proposals are equal but for the amount, up to the guard's normalizations. -/
structure Unchanged (pinned theirs : Proposal) : Prop where
  selection : (normalizeExactValue (Json.get pinned "settlement_selection")).Same
    (normalizeExactValue (Json.get theirs "settlement_selection"))
  chain : (Json.get pinned "chain_name").Same (Json.get theirs "chain_name")
  address : ∃ address, addressOf (Json.get pinned "escrow_address") = .ok address ∧
    addressOf (Json.get theirs "escrow_address") = .ok address
  expiration : (Json.get pinned "expiration_unix" = .null ∧
      Json.get theirs "expiration_unix" = .null) ∨
    SameExpiration (Json.get pinned "expiration_unix") (Json.get theirs "expiration_unix")
  fields : ∃ ours others, fieldsOf pinned = .obj ours ∧ fieldsOf theirs = .obj others ∧
    ∀ key ≠ "amount", SameField (Fields.find ours key) (Fields.find others key)
  literalFields : (normalizeExactValue (Json.get pinned "literal_fields")).Same
    (normalizeExactValue (Json.get theirs "literal_fields"))
  rates : (normalizeExactValue (Json.get pinned "rates")).Same
    (normalizeExactValue (Json.get theirs "rates"))
  demand : SameDemand loads pinned theirs

variable {loads} {pinned theirs : Proposal}

theorem expirationChanged_iff {first second : Json} :
    expirationChanged first second = .ok false ↔
      (first ≠ .null → second ≠ .null → SameExpiration first second) := by
  unfold expirationChanged SameExpiration
  split
  next stated =>
    constructor
    · intro same _ _
      obtain ⟨ours, reads, same⟩ := bind_eq_ok.mp same
      obtain ⟨others, reads', same⟩ := bind_eq_ok.mp same
      have equal : ours = others := by
        by_contra differ
        rw [decide_eq_true differ] at same
        cases same
      exact ⟨ours, reads, equal ▸ reads'⟩
    · intro same
      obtain ⟨unix, reads, reads'⟩ := same stated.1 stated.2
      rw [reads, reads']
      change Except.ok (decide (unix ≠ unix)) = _
      rw [decide_eq_false (not_not.mpr rfl)]
  next unstated =>
    exact iff_of_true rfl fun first second => absurd ⟨first, second⟩ unstated

theorem fieldChange_eq_none {pinned : Fields Json} {theirs : Option (Fields Json)}
    {keys : List String} :
    fieldChange repr pinned theirs keys = none ↔
      ∀ key ∈ keys, key ≠ "amount" → KeepsField pinned theirs key := by
  induction keys with
  | nil => simp [fieldChange]
  | cons key rest ih =>
    rw [fieldChange, List.forall_mem_cons]
    split
    next kept =>
      rw [ih]
      exact ⟨fun others => ⟨fun named => kept.resolve_left named, others⟩, And.right⟩
    next changed =>
    rw [not_or] at changed
    refine iff_of_false (fun none => ?_) fun kept => changed.2 (kept.1 changed.1)
    cases none

theorem demandChange_eq_none :
    demandChange repr loads pinned theirs = none ↔ SameDemand loads pinned theirs := by
  unfold demandChange SameDemand
  cases normalizeSelectedDemand loads pinned with
  | error text => simp [rejecting]
  | ok ours =>
    cases normalizeSelectedDemand loads theirs with
    | error text => simp [rejecting]
    | ok others =>
      by_cases same : ours.Same others
      · simp [same]
      · simp [same, rejecting]

theorem membersOfFields_eq_some {proposal : Proposal} {members : Fields Json} :
    membersOfFields proposal = some members ↔ fieldsOf proposal = .obj members := by
  unfold membersOfFields
  split
  next read => simp [read]
  next other => exact iff_of_false (fun never => by cases never) fun read => other _ read

/-- The guard's comparisons find no change exactly where the proposals agree in what it
compares. -/
theorem shapeChange_eq_none :
    shapeChange repr loads pinned theirs = .ok none ↔ CheckedSame loads pinned theirs := by
  unfold shapeChange
  by_cases selection : (normalizeExactValue (Json.get pinned "settlement_selection")).Same
      (normalizeExactValue (Json.get theirs "settlement_selection"))
  case neg =>
    rw [if_pos selection]
    exact iff_of_false (fun never => by cases never) fun same => selection same.selection
  by_cases chain : (Json.get pinned "chain_name").Same (Json.get theirs "chain_name")
  case neg =>
    rw [if_neg (not_not.mpr selection), if_pos chain]
    exact iff_of_false (fun never => by cases never) fun same => chain same.chain
  rw [if_neg (not_not.mpr selection), if_neg (not_not.mpr chain)]
  constructor
  · intro unchanged
    obtain ⟨ours, reads, unchanged⟩ := bind_eq_ok.mp unchanged
    obtain ⟨others, reads', unchanged⟩ := bind_eq_ok.mp unchanged
    split at unchanged
    next => cases unchanged
    next address =>
    obtain ⟨expired, expiration, unchanged⟩ := bind_eq_ok.mp unchanged
    cases expired with
    | true => cases unchanged
    | false =>
      rw [if_neg Bool.false_ne_true] at unchanged
      split at unchanged
      next => cases unchanged
      next members named =>
      split at unchanged
      next => cases unchanged
      next fields =>
      refine ⟨selection, chain, ⟨ours, others, reads, reads', fun given given' => ?_⟩,
        expirationChanged_iff.mp expiration,
        ⟨members, membersOfFields_eq_some.mp named, fieldChange_eq_none.mp fields⟩,
        demandChange_eq_none.mp (Except.ok.inj unchanged)⟩
      by_contra differ
      exact address ⟨given, given', differ⟩
  · intro same
    obtain ⟨ours, others, reads, reads', agree⟩ := same.address
    obtain ⟨members, named, fields⟩ := same.fields
    have address : ¬(ours ≠ "" ∧ others ≠ "" ∧ ours ≠ others) :=
      fun changed => changed.2.2 (agree changed.1 changed.2.1)
    have demand : demandChange repr loads pinned theirs = none := demandChange_eq_none.mpr same.demand
    rw [reads, reads', expirationChanged_iff.mpr same.expiration, membersOfFields_eq_some.mpr named]
    change (if ours ≠ "" ∧ others ≠ "" ∧ ours ≠ others then _ else _) = _
    rw [if_neg address]
    change (match fieldChange repr members (membersOfFields theirs) (members.map Prod.fst) with
      | some decision => Except.ok (some decision)
      | none => Except.ok (demandChange repr loads pinned theirs)) = _
    rw [fieldChange_eq_none.mpr fields, demand]

/-- Where the proposals agree in what the guard compares, they are equal exactly where they
agree in the rest. -/
theorem CheckedSame.unchanged_iff (same : CheckedSame loads pinned theirs) :
    Unchanged loads pinned theirs ↔ UncheckedSame pinned theirs := by
  obtain ⟨members, named, kept⟩ := same.fields
  obtain ⟨ours, others, reads, reads', agree⟩ := same.address
  constructor
  · intro unchanged
    refine ⟨?_, ?_, ?_, unchanged.literalFields, unchanged.rates⟩
    · obtain ⟨address, first, second⟩ := unchanged.address
      rw [first, second]
    · rcases unchanged.expiration with ⟨first, second⟩ | ⟨unix, first, second⟩
      · exact iff_of_true first second
      · refine iff_of_false (fun absent => ?_) fun absent => ?_
        · rw [absent] at first
          cases first
        · rw [absent] at second
          cases second
    · obtain ⟨ours, others, read, read', equal⟩ := unchanged.fields
      refine ⟨others, read', fun again read'' key other => ?_⟩
      cases Json.obj.inj (read.symm.trans read'')
      have same := equal key other
      cases first : Fields.find ours key <;> cases second : Fields.find others key <;>
        simp_all [SameField]
  · intro rest
    refine ⟨same.selection, same.chain, ?_, ?_, ?_, rest.literalFields, rest.rates, same.demand⟩
    · by_cases empty : ours = ""
      · have empty' := rest.address.mp (empty ▸ reads)
        exact ⟨"", empty ▸ reads, empty'⟩
      · have given : others ≠ "" := by
          intro empty'
          have := rest.address.mpr (empty' ▸ reads')
          exact empty (Except.ok.inj (reads.symm.trans this))
        exact ⟨ours, reads, agree empty given ▸ reads'⟩
    · by_cases absent : Json.get pinned "expiration_unix" = .null
      · exact .inl ⟨absent, rest.expiration.mp absent⟩
      · exact .inr (same.expiration absent (mt rest.expiration.mpr absent))
    · obtain ⟨others, read', present⟩ := rest.fields
      refine ⟨members, others, named, read', fun key other => ?_⟩
      have together := present members named key other
      cases first : Fields.find members key with
      | none =>
        cases second : Fields.find others key with
        | none => trivial
        | some value => simp [first, second] at together
      | some value =>
        cases second : Fields.find others key with
        | none => simp [first, second] at together
        | some value' =>
          have inside : key ∈ members.map Prod.fst :=
            List.mem_map_of_mem (Fields.mem_of_find first)
          have keeps := kept key inside other
          rw [KeepsField, membersOfFields_eq_some.mpr read'] at keeps
          change (normalizeEscrowField ((Fields.find members key).getD .null)).Same
            (normalizeEscrowField ((Fields.find others key).getD .null)) at keeps
          rwa [first, second] at keeps

/-! ## The guard admits no mutation of what it compares -/

/-- The guard passes only proposals that are unchanged, exactly where the proposals differ in
what it compares or agree in what it does not. -/
theorem shape_guard_iff {history : List NegotiationRound} {context : NegotiationContext}
    (named : theirLastProposal history = some theirs)
    (ours : context.ourEscrowProposal = some pinned) :
    ((∃ after, buyerEscrowShapeGuard repr loads history context = .ok (none, after)) →
      Unchanged loads pinned theirs) ↔
    ¬CheckedSame loads pinned theirs ∨ UncheckedSame pinned theirs := by
  have passes : (∃ after, buyerEscrowShapeGuard repr loads history context = .ok (none, after)) ↔
      CheckedSame loads pinned theirs := by
    rw [← @shapeChange_eq_none repr loads pinned theirs]
    unfold buyerEscrowShapeGuard
    rw [named, ours]
    constructor
    · rintro ⟨after, passes⟩
      obtain ⟨decision, change, same⟩ := bind_eq_ok.mp passes
      cases same
      exact change
    · intro change
      exact ⟨context, bind_eq_ok.mpr ⟨none, change, rfl⟩⟩
  rw [passes, imp_iff_not_or]
  by_cases same : CheckedSame loads pinned theirs
  · rw [same.unchanged_iff]
  · simp [same]

end

def samplePinned : Proposal :=
  [("chain_name", .str "base"),
    ("escrow_address", .str "0x00000000000000000000000000000000000000Aa"),
    ("fields", .obj [("token", .str "0x00000000000000000000000000000000000000Bb"),
      ("amount", .str "100")]),
    ("rates", .list [.obj [("field", .str "amount"), ("value", .int 5)]])]

def sampleUnpinned : Proposal := samplePinned.filter fun member => member.1 ≠ "escrow_address"

def sampleContext : NegotiationContext :=
  ⟨.minimize, 100, none, [], some samplePinned, 4, []⟩

def sampleCounter (theirs : Proposal) : List NegotiationRound :=
  [⟨0, .us, .initial, some samplePinned⟩, ⟨0, .them, .counter, some theirs⟩]

/-- The guard passes a seller's proposal that is the pinned one. -/
theorem shape_guard_iff_pinned :
    buyerEscrowShapeGuard (fun _ => "") (fun _ => none) (sampleCounter samplePinned) sampleContext =
      .ok (none, sampleContext) ∧
    Unchanged (fun _ => none) samplePinned samplePinned := by
  have change : shapeChange (fun _ => "") (fun _ => none) samplePinned samplePinned = .ok none := by
    decide +kernel
  have passes : buyerEscrowShapeGuard (fun _ => "") (fun _ => none) (sampleCounter samplePinned)
      sampleContext = .ok (none, sampleContext) :=
    bind_eq_ok.mpr ⟨none, change, rfl⟩
  have rest : UncheckedSame samplePinned samplePinned :=
    ⟨Iff.rfl, Iff.rfl, ⟨_, rfl, fun _ read _ _ => by cases read; rfl⟩, rfl, rfl⟩
  exact ⟨passes, (@shape_guard_iff (fun _ => "") _ _ _ _ _ rfl rfl).mpr (.inr rest) ⟨_, passes⟩⟩

/-- The guard passes a seller's proposal that leaves the pinned escrow contract out. -/
theorem unpinned_passes :
    buyerEscrowShapeGuard (fun _ => "") (fun _ => none) (sampleCounter sampleUnpinned)
      sampleContext = .ok (none, sampleContext) ∧
    ¬Unchanged (fun _ => none) samplePinned sampleUnpinned := by
  have change : shapeChange (fun _ => "") (fun _ => none) samplePinned sampleUnpinned = .ok none := by
    decide +kernel
  refine ⟨bind_eq_ok.mpr ⟨none, change, rfl⟩, fun unchanged => ?_⟩
  obtain ⟨address, pinned, theirs⟩ := unchanged.address
  have empty : "" = address := Except.ok.inj theirs
  rw [← empty] at pinned
  revert pinned
  decide +kernel

end ComputeMarket.Buyer
