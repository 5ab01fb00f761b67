import ComputeMarket.Buyer.Offer

/-!
# Bargaining over an amount

A buyer and a seller take turns over one transcript, each reading it as its own: the buyer
decides by `listed_price` or `bisection` under its ceiling, the seller by `bisection` over its
reference. An acceptance by the buyer settles the seller's last counter (`_last_seller_amount`),
one by the seller the buyer's last amount.

`Talked` says what a transcript is that two such deciders come to, by its last amount;
`Bargain.reached` that every run stays in it, and `bargaining_iff` when what is agreed lies
between the two sides' bounds.
-/

namespace ComputeMarket.Buyer

/-! ## Two sides and a transcript -/

structure Turn where
  side : Side
  roundNumber : ℕ
  action : RoundAction
  proposal : Option Proposal

def view (side : Side) (transcript : List Turn) : List NegotiationRound :=
  transcript.map fun turn =>
    ⟨turn.roundNumber, if turn.side = side then .us else .them, turn.action, turn.proposal⟩

structure Bargain where
  loads : Loads
  decider : Decider
  buyer : NegotiationContext
  seller : NegotiationContext
  minimizes : buyer.direction = .minimize
  maximizes : seller.direction = .maximize

/-- How a bargain ends: by an acceptance, or by a side that leaves. -/
inductive Ending
  | agreed (amount : ℤ)
  | left (side : Side)

structure Talks where
  transcript : List Turn
  ending : Option Ending

/-- `_last_seller_amount`, of messages with the latest first. -/
def lastSellerAmount (fallback : ℤ) : List Turn → Except BuyerError ℤ
  | [] => .ok fallback
  | turn :: rest =>
    if turn.action = .counter ∧ turn.side = .seller then do
      match ← amountFromProposal turn.proposal with
      | none => .error (.runtime "seller counter has no recoverable amount")
      | some amount => .ok amount
    else lastSellerAmount fallback rest

def mover (transcript : List Turn) : Side :=
  match transcript.getLast? with
  | some turn => if turn.side = .buyer then .seller else .buyer
  | none => .buyer

namespace Bargain

variable (bargain : Bargain)

def decides (side : Side) (transcript : List Turn) : Except BuyerError NegotiationDecision :=
  match side with
  | .buyer => bargain.decider.decide bargain.loads (view .buyer transcript) bargain.buyer
  | .seller => bisectionMiddleware bargain.loads (view .seller transcript) bargain.seller

def settles (side : Side) (transcript : List Turn) : Except BuyerError Ending :=
  match side with
  | .buyer => .agreed <$> lastSellerAmount bargain.seller.ourReferenceAmount transcript.reverse
  | .seller => do
      match ← theirProposedAmount (view .seller transcript) with
      | none => .error (.runtime "no amount to settle")
      | some amount => .ok (.agreed amount)

def carry (side : Side) (transcript : List Turn) (decision : NegotiationDecision) :
    Except BuyerError Talks :=
  match decision.action with
  | .counter =>
    match decision.proposal with
    | none => .error (.runtime "chain returned 'counter' without a proposal")
    | some proposal =>
      .ok ⟨transcript ++ [⟨side, transcript.length,
        if transcript = [] then .initial else .counter, some proposal⟩], none⟩
  | .accept => (fun ending => ⟨transcript, some ending⟩) <$> bargain.settles side transcript
  | .exit => .ok ⟨transcript, some (.left side)⟩
  | .reject => .ok ⟨transcript, some (.left side)⟩

def step (talks : Talks) : Except BuyerError Talks :=
  match talks.ending with
  | some _ => .ok talks
  | none => do
      let decision ← bargain.decides (mover talks.transcript) talks.transcript
      bargain.carry (mover talks.transcript) talks.transcript decision

def run : ℕ → Except BuyerError Talks
  | 0 => .ok ⟨[], none⟩
  | messages + 1 => do
      let talks ← run messages
      bargain.step talks

end Bargain

/-! ## Amounts of a transcript -/

def Turn.Proposes (turn : Turn) (amount : ℕ) : Prop :=
  amountFromProposal turn.proposal = .ok (some amount)

def countersOf (side : Side) (transcript : List Turn) : ℕ :=
  (transcript.filter fun turn => turn.side = side ∧ turn.action = .counter).length

theorem fields_of_amount {proposal : Proposal} {amount : ℕ}
    (proposes : amountFromProposal (some proposal) = .ok (some amount)) :
    ∃ fields, fieldsOf proposal = .obj fields := by
  rw [amountFromProposal] at proposes
  split at proposes
  next fields there => exact ⟨fields, there⟩
  next => cases proposes

theorem amountFromProposal_of_amountOf {proposal : Proposal} {amount : ℕ}
    (read : amountOf (some proposal) = .ok (some amount)) :
    amountFromProposal (some proposal) = .ok (some amount) := by
  rw [amountOf] at read
  rw [amountFromProposal]
  generalize fieldsOf proposal = fields at read ⊢
  cases fields with
  | obj fields => exact read
  | _ => cases read

theorem exists_setProposalAmount {proposal : Proposal} {old : ℕ}
    (proposes : amountFromProposal (some proposal) = .ok (some old)) {amount : ℤ}
    (positive : 0 ≤ amount) :
    ∃ written, setProposalAmount proposal amount = .ok written ∧
      amountFromProposal (some written) = .ok (some amount.toNat) := by
  obtain ⟨fields, there⟩ := fields_of_amount proposes
  have format : formatWireAmount amount =
      .ok (.str (String.ofList (Nat.toDigits 10 amount.toNat))) := by
    rw [formatWireAmount, if_neg (not_lt.mpr positive)]
  have set : setProposalAmount proposal amount = .ok (proposal.put "fields"
      (.obj (Fields.put fields "amount" (.str (String.ofList (Nat.toDigits 10 amount.toNat)))))) := by
    rw [setProposalAmount, there, dictOf, format]
    rfl
  exact ⟨_, set, amountFromProposal_of_amountOf (amountOf_setProposalAmount set).2⟩

theorem view_append (side : Side) (transcript : List Turn) (turn : Turn) :
    view side (transcript ++ [turn]) = view side transcript ++
      [⟨turn.roundNumber, if turn.side = side then .us else .them, turn.action,
        turn.proposal⟩] := by
  rw [view, List.map_append, List.map_singleton]
  rfl

theorem theirs_of_last (side : Side) (transcript : List Turn) {turn : Turn} {amount : ℕ}
    (other : turn.side ≠ side) (proposes : turn.Proposes amount) :
    theirProposedAmount (view side (transcript ++ [turn])) = .ok (some amount) ∧
      theirLastProposal (view side (transcript ++ [turn])) = turn.proposal := by
  rw [view_append]
  constructor
  · rw [theirProposedAmount, List.reverse_append, List.reverse_singleton, List.singleton_append,
      firstAmount, if_neg other, if_pos rfl]
    rw [Turn.Proposes] at proposes
    rw [proposes]
  · rw [theirLastProposal, List.reverse_append, List.reverse_singleton, List.singleton_append]
    obtain ⟨taker, number, action, proposal⟩ := turn
    cases proposal with
    | none => cases proposes
    | some proposal => simp [List.findSome?, if_neg other]

theorem ourPreviousCounters_view (side : Side) {transcript : List Turn}
    (proposed : ∀ turn ∈ transcript, ∃ amount, turn.Proposes amount) :
    ∃ counters, ourPreviousCounters (view side transcript) = .ok counters ∧
      counters.length = countersOf side transcript := by
  induction transcript with
  | nil => exact ⟨[], rfl, rfl⟩
  | cons turn rest ih =>
    obtain ⟨⟨amount, proposes⟩, others⟩ := List.forall_mem_cons.mp proposed
    obtain ⟨counters, read, count⟩ := ih others
    rw [Turn.Proposes] at proposes
    rw [view, List.map_cons, ourPreviousCounters]
    by_cases own : turn.side = side ∧ turn.action = .counter
    · obtain ⟨mine, countered⟩ := own
      refine ⟨amount :: counters, ?_, ?_⟩
      · rw [if_pos (by simp [mine, countered])]
        exact bind_eq_ok.mpr ⟨_, proposes, bind_eq_ok.mpr ⟨_, read, rfl⟩⟩
      · rw [countersOf, List.filter_cons_of_pos (by simp [mine, countered]), List.length_cons,
          List.length_cons, count]
        rfl
    · refine ⟨counters, ?_, ?_⟩
      · rw [if_neg (by
          rintro ⟨sender, countered⟩
          refine own ⟨?_, countered⟩
          by_contra theirs
          rw [if_neg theirs] at sender
          cases sender)]
        exact read
      · rw [countersOf, List.filter_cons_of_neg (by simpa using own), count]
        rfl

/-! ## What the deciders say to an amount -/

variable {history : List NegotiationRound} {context : NegotiationContext}

/-- `bisection` on an amount: what it says in each direction while it has rounds left and its
last two counters differ. -/
theorem bisection_of_amount {loads : Loads} {counters : List ℕ} {theirs : ℕ} {last : Proposal}
    (countered : ourPreviousCounters history = .ok counters)
    (named : theirProposedAmount history = .ok (some theirs))
    (there : theirLastProposal history = some last) :
    bisectionMiddleware loads history context =
      if context.maxRounds ≤ counters.length then .ok ⟨.exit, none, some "max_rounds"⟩
      else if 2 ≤ counters.length ∧
          counters[counters.length - 1]? = counters[counters.length - 2]? then
        .ok ⟨.exit, none, some "stale_negotiation"⟩
      else
        match context.direction with
        | .minimize =>
          if theirs * 100 ≤ context.ourReferenceAmount * 101 then
            (fun written => ⟨.accept, some written, some "convergence"⟩) <$>
              setProposalAmount last theirs
          else if theirs * 2 ≤ context.ourReferenceAmount * 3 then
            (fun written => ⟨.counter, some written, none⟩) <$>
              setProposalAmount last
                (min ((context.ourReferenceAmount + theirs) / 2) context.ourReferenceAmount)
          else .ok ⟨.exit, none, some "price_unreasonable"⟩
        | .maximize =>
          if theirs * 100 ≥ context.ourReferenceAmount * 99 then
            (fun written => ⟨.accept, some written, some "convergence"⟩) <$>
              setProposalAmount last theirs
          else if theirs * 3 ≥ context.ourReferenceAmount * 2 then
            (fun written => ⟨.counter, some written, none⟩) <$>
              setProposalAmount last ((context.ourReferenceAmount + theirs) / 2)
          else .ok ⟨.exit, none, some "price_unreasonable"⟩ := by
  unfold bisectionMiddleware
  rw [countered, named, there]
  change (if context.maxRounds ≤ counters.length then _ else _) = _
  split
  · rfl
  split
  · rfl
  cases context.direction with
  | minimize =>
    change (if _ then _ else _) = (if _ then _ else _)
    split
    · rfl
    split <;> rfl
  | maximize =>
    change (if _ then _ else _) = (if _ then _ else _)
    split
    · rfl
    split <;> rfl

theorem bisection_minimizes {loads : Loads} {counters : List ℕ} {ceiling theirs : ℕ}
    {last : Proposal} (minimizes : context.direction = .minimize)
    (reference : context.ourReferenceAmount = ceiling)
    (countered : ourPreviousCounters history = .ok counters)
    (named : theirProposedAmount history = .ok (some theirs))
    (there : theirLastProposal history = some last)
    (proposes : amountFromProposal (some last) = .ok (some theirs)) :
    ∃ decision, bisectionMiddleware loads history context = .ok decision ∧
      (decision.action = .exit ∨
        decision.action = .accept ∧ theirs * 100 ≤ ceiling * 101 ∨
        decision.action = .counter ∧ counters.length < context.maxRounds ∧
          ∃ proposal amount, decision.proposal = some proposal ∧
            amountFromProposal (some proposal) = .ok (some amount) ∧ amount ≤ ceiling) := by
  rw [bisection_of_amount countered named there, minimizes, reference]
  split
  · exact ⟨_, rfl, .inl rfl⟩
  next left =>
  split
  · exact ⟨_, rfl, .inl rfl⟩
  dsimp only
  split
  next converges =>
      obtain ⟨written, set, -⟩ :=
        exists_setProposalAmount proposes (Int.natCast_nonneg theirs)
      exact ⟨_, map_eq_ok.mpr ⟨written, set, rfl⟩, .inr (.inl ⟨rfl, by omega⟩)⟩
  split
  next =>
      have positive : 0 ≤ min (((ceiling : ℤ) + theirs) / 2) ceiling := by omega
      obtain ⟨written, set, read⟩ := exists_setProposalAmount proposes positive
      refine ⟨_, map_eq_ok.mpr ⟨written, set, rfl⟩,
        .inr (.inr ⟨rfl, not_le.mp left, written, _, rfl, read, ?_⟩)⟩
      omega
  · exact ⟨_, rfl, .inl rfl⟩

theorem bisection_maximizes {loads : Loads} {counters : List ℕ} {reference theirs : ℕ}
    {last : Proposal} (maximizes : context.direction = .maximize)
    (asks : context.ourReferenceAmount = reference)
    (countered : ourPreviousCounters history = .ok counters)
    (named : theirProposedAmount history = .ok (some theirs))
    (there : theirLastProposal history = some last)
    (proposes : amountFromProposal (some last) = .ok (some theirs)) :
    ∃ decision, bisectionMiddleware loads history context = .ok decision ∧
      (decision.action = .exit ∨
        decision.action = .accept ∧ counters.length < context.maxRounds ∧
          reference * 99 ≤ theirs * 100 ∨
        decision.action = .counter ∧ counters.length < context.maxRounds ∧
          ∃ proposal amount, decision.proposal = some proposal ∧
            amountFromProposal (some proposal) = .ok (some amount) ∧
            theirs ≤ amount ∧ 5 * reference ≤ 6 * amount + 3) := by
  rw [bisection_of_amount countered named there, maximizes, asks]
  split
  · exact ⟨_, rfl, .inl rfl⟩
  next left =>
  split
  · exact ⟨_, rfl, .inl rfl⟩
  dsimp only
  split
  next converges =>
      obtain ⟨written, set, -⟩ :=
        exists_setProposalAmount proposes (Int.natCast_nonneg theirs)
      exact ⟨_, map_eq_ok.mpr ⟨written, set, rfl⟩, .inr (.inl ⟨rfl, not_le.mp left, by omega⟩)⟩
  next below =>
  split
  next =>
      have positive : 0 ≤ ((reference : ℤ) + theirs) / 2 := by omega
      obtain ⟨written, set, read⟩ := exists_setProposalAmount proposes positive
      refine ⟨_, map_eq_ok.mpr ⟨written, set, rfl⟩,
        .inr (.inr ⟨rfl, not_le.mp left, written, _, rfl, read, ?_, ?_⟩)⟩
      all_goals omega
  · exact ⟨_, rfl, .inl rfl⟩

theorem listedPrice_minimizes (loads : Loads) {ceiling theirs : ℕ} {last : Proposal}
    (minimizes : context.direction = .minimize) (reference : context.ourReferenceAmount = ceiling)
    (named : theirProposedAmount history = .ok (some theirs))
    (there : theirLastProposal history = some last)
    (proposes : amountFromProposal (some last) = .ok (some theirs)) :
    ∃ decision, listedPriceMiddleware loads history context = .ok decision ∧
      (decision.action = .exit ∨ decision.action = .accept ∧ theirs ≤ ceiling) := by
  obtain ⟨written, set, -⟩ :=
    exists_setProposalAmount proposes (Int.natCast_nonneg theirs)
  rw [listedPriceMiddleware, there]
  dsimp only
  rw [named, minimizes, reference]
  by_cases within : (theirs : ℤ) ≤ ceiling
  · refine ⟨⟨.accept, some written, some "listed_price"⟩,
      bind_eq_ok.mpr ⟨_, rfl, ?_⟩, .inr ⟨rfl, by omega⟩⟩
    dsimp only
    rw [if_pos (decide_eq_true within)]
    exact bind_eq_ok.mpr ⟨written, set, rfl⟩
  · refine ⟨⟨.exit, none, some "price_above_bound"⟩, bind_eq_ok.mpr ⟨_, rfl, ?_⟩, .inl rfl⟩
    dsimp only
    rw [if_neg (by simpa using within)]
    rfl

/-! ## Transcripts of a bargain -/

/-- What follows a turn: the seller answers the buyer with no less than its amount, the buyer the
seller with no more than its ceiling. -/
def Follows (ceiling : ℕ) (earlier later : Turn) : Prop :=
  match later.side with
  | .seller => earlier.side = .buyer ∧
      ∃ theirs ours, earlier.Proposes theirs ∧ later.Proposes ours ∧ theirs ≤ ours
  | .buyer => earlier.side = .seller ∧ ∃ ours, later.Proposes ours ∧ ours ≤ ceiling

/-- A transcript that ends with a turn of one side: the buyer's opening, or a turn that follows
another, and no side has countered more often than its rounds. -/
inductive Talked (bargain : Bargain) (opening reference ceiling : ℕ) : Side → ℕ → List Turn → Prop
  | opened {turn : Turn} (opens : bargain.decider = .bisection → 0 < bargain.buyer.maxRounds)
      (buyers : turn.side = .buyer) (starts : turn.action = .initial)
      (proposes : turn.Proposes opening) :
      Talked bargain opening reference ceiling .buyer opening [turn]
  | answered {transcript : List Turn} {turn : Turn} {theirs amount : ℕ}
      (talked : Talked bargain opening reference ceiling .buyer theirs transcript)
      (rounds : countersOf .seller transcript < bargain.seller.maxRounds)
      (sellers : turn.side = .seller) (counters : turn.action = .counter)
      (proposes : turn.Proposes amount) (above : theirs ≤ amount)
      (least : 5 * reference ≤ 6 * amount + 3) :
      Talked bargain opening reference ceiling .seller amount (transcript ++ [turn])
  | countered {transcript : List Turn} {turn : Turn} {theirs amount : ℕ}
      (talked : Talked bargain opening reference ceiling .seller theirs transcript)
      (rounds : countersOf .buyer transcript < bargain.buyer.maxRounds)
      (buyers : turn.side = .buyer) (counters : turn.action = .counter)
      (proposes : turn.Proposes amount) (within : amount ≤ ceiling) :
      Talked bargain opening reference ceiling .buyer amount (transcript ++ [turn])

section Transcripts

variable {bargain : Bargain} {opening reference ceiling amount : ℕ} {side : Side}
  {transcript : List Turn}

theorem Talked.last (talked : Talked bargain opening reference ceiling side amount transcript) :
    ∃ before turn, transcript = before ++ [turn] ∧ turn.side = side ∧ turn.Proposes amount := by
  cases talked with
  | opened _ buyers _ proposes => exact ⟨[], _, rfl, buyers, proposes⟩
  | answered _ _ sellers _ proposes => exact ⟨_, _, rfl, sellers, proposes⟩
  | countered _ _ buyers _ proposes => exact ⟨_, _, rfl, buyers, proposes⟩

theorem Talked.proposes (talked : Talked bargain opening reference ceiling side amount transcript) :
    ∀ turn ∈ transcript, ∃ amount, turn.Proposes amount := by
  induction talked with
  | opened _ _ _ proposes =>
    intro turn member
    rw [List.mem_singleton.mp member]
    exact ⟨_, proposes⟩
  | answered _ _ _ _ proposes _ _ ih | countered _ _ _ _ proposes _ ih =>
    intro turn member
    rcases List.mem_append.mp member with earlier | last
    · exact ih turn earlier
    · rw [List.mem_singleton.mp last]
      exact ⟨_, proposes⟩

theorem countersOf_append (side : Side) (transcript : List Turn) (turn : Turn) :
    countersOf side (transcript ++ [turn]) = countersOf side transcript +
      if turn.side = side ∧ turn.action = .counter then 1 else 0 := by
  rw [countersOf, List.filter_append, List.length_append, countersOf]
  congr 1
  by_cases own : turn.side = side ∧ turn.action = .counter
  · rw [List.filter_cons_of_pos (by simpa using own), if_pos own]
    rfl
  · rw [List.filter_cons_of_neg (by simpa using own), if_neg own]
    rfl

theorem Talked.rounds (talked : Talked bargain opening reference ceiling side amount transcript) :
    countersOf .buyer transcript ≤ bargain.buyer.maxRounds ∧
      countersOf .seller transcript ≤ bargain.seller.maxRounds ∧
      transcript.length = 2 * countersOf .seller transcript +
        (if side = .buyer then 1 else 0) := by
  induction talked with
  | @opened turn _ _ starts _ =>
    have none : ∀ side, countersOf side [turn] = 0 := fun side => by
      simp [countersOf, starts]
    rw [none, none]
    exact ⟨Nat.zero_le _, Nat.zero_le _, rfl⟩
  | answered _ rounds sellers counters _ _ _ ih =>
    obtain ⟨buyer, seller, length⟩ := ih
    rw [countersOf_append, countersOf_append, sellers, counters, List.length_append, length]
    refine ⟨by simpa using buyer, by simpa [Nat.succ_le_iff] using rounds, ?_⟩
    simp
    omega
  | countered _ rounds buyers counters _ _ ih =>
    obtain ⟨buyer, seller, length⟩ := ih
    rw [countersOf_append, countersOf_append, buyers, counters, List.length_append, length]
    refine ⟨by simpa [Nat.succ_le_iff] using rounds, by simpa using seller, ?_⟩
    simp

theorem Talked.follows (talked : Talked bargain opening reference ceiling side amount transcript) :
    transcript.IsChain (Follows ceiling) := by
  induction talked with
  | opened => exact List.isChain_singleton _
  | answered talked _ sellers _ proposes above _ ih =>
    obtain ⟨before, turn, rfl, buyers, theirs⟩ := talked.last
    refine List.isChain_append.mpr ⟨ih, List.isChain_singleton _, ?_⟩
    intro earlier last later first
    simp only [List.getLast?_append, List.getLast?_singleton, Option.some_or, Option.mem_def,
      Option.some.injEq, List.head?_cons] at last first
    subst last first
    rw [Follows, sellers]
    exact ⟨buyers, _, _, theirs, proposes, above⟩
  | countered talked _ buyers _ proposes within ih =>
    obtain ⟨before, turn, rfl, sellers, theirs⟩ := talked.last
    refine List.isChain_append.mpr ⟨ih, List.isChain_singleton _, ?_⟩
    intro earlier last later first
    simp only [List.getLast?_append, List.getLast?_singleton, Option.some_or, Option.mem_def,
      Option.some.injEq, List.head?_cons] at last first
    subst last first
    rw [Follows, buyers]
    exact ⟨sellers, _, proposes, within⟩

theorem Talked.offered (talked : Talked bargain opening reference ceiling .buyer amount transcript) :
    amount = opening ∨ amount ≤ ceiling := by
  cases talked with
  | opened => exact .inl rfl
  | countered _ _ _ _ _ within => exact .inr within

theorem Talked.asked (talked : Talked bargain opening reference ceiling .seller amount transcript) :
    5 * reference ≤ 6 * amount + 3 := by
  cases talked with
  | answered _ _ _ _ _ _ least => exact least

theorem Talked.opens (talked : Talked bargain opening reference ceiling side amount transcript) :
    bargain.decider = .bisection → 0 < bargain.buyer.maxRounds := by
  induction talked with
  | opened opens _ _ _ => exact opens
  | answered _ _ _ _ _ _ _ ih | countered _ _ _ _ _ _ ih => exact ih

theorem Talked.mover_eq
    (talked : Talked bargain opening reference ceiling side amount transcript) :
    mover transcript = if side = .buyer then .seller else .buyer := by
  obtain ⟨before, turn, rfl, rfl, -⟩ := talked.last
  rw [mover, List.getLast?_append, List.getLast?_singleton, Option.some_or]

end Transcripts

/-! ## Runs -/

section Runs

variable (bargain : Bargain) (opening reference ceiling : ℕ)

/-- Where a run stands: before the opening, between two turns, or at an end. -/
inductive Reached : Talks → Prop
  | start : Reached ⟨[], none⟩
  | unopened : Reached ⟨[], some (.left .buyer)⟩
  | talking {side : Side} {amount : ℕ} {transcript : List Turn}
      (talked : Talked bargain opening reference ceiling side amount transcript) :
      Reached ⟨transcript, none⟩
  | left {side : Side} {amount : ℕ} {transcript : List Turn} (leaver : Side)
      (talked : Talked bargain opening reference ceiling side amount transcript) :
      Reached ⟨transcript, some (.left leaver)⟩
  | bought {amount : ℕ} {transcript : List Turn}
      (talked : Talked bargain opening reference ceiling .seller amount transcript)
      (within : bargain.decider.Within amount ceiling) :
      Reached ⟨transcript, some (.agreed amount)⟩
  | sold {amount : ℕ} {transcript : List Turn}
      (talked : Talked bargain opening reference ceiling .buyer amount transcript)
      (rounds : countersOf .seller transcript < bargain.seller.maxRounds)
      (above : reference * 99 ≤ amount * 100) :
      Reached ⟨transcript, some (.agreed amount)⟩

/-- The two sides' bounds, and the amount that the buyer's opening proposes. -/
structure Terms : Prop where
  ceiling_eq : bargain.buyer.ourReferenceAmount = ceiling
  reference_eq : bargain.seller.ourReferenceAmount = reference
  opens : ∃ first, openingProposal bargain.loads bargain.buyer = .ok first ∧
    amountFromProposal (some first) = .ok (some opening)

variable {bargain opening reference ceiling}

theorem Terms.buyer_decides (terms : Terms bargain opening reference ceiling) {amount : ℕ}
    {transcript : List Turn}
    (talked : Talked bargain opening reference ceiling .seller amount transcript) :
    ∃ decision, bargain.decides .buyer transcript = .ok decision ∧
      (decision.action = .exit ∨
        decision.action = .accept ∧ bargain.decider.Within amount ceiling ∨
        decision.action = .counter ∧ countersOf .buyer transcript < bargain.buyer.maxRounds ∧
          ∃ proposal ours, decision.proposal = some proposal ∧
            amountFromProposal (some proposal) = .ok (some ours) ∧ ours ≤ ceiling) := by
  obtain ⟨counters, countered, count⟩ := ourPreviousCounters_view .buyer talked.proposes
  obtain ⟨before, turn, rfl, sellers, proposes⟩ := talked.last
  obtain ⟨named, there⟩ := theirs_of_last .buyer before (by rw [sellers]; decide) proposes
  rw [← count]
  obtain ⟨taker, number, action, proposal⟩ := turn
  cases proposal with
  | none => cases proposes
  | some last =>
    unfold Bargain.decides Decider.decide Decider.Within
    cases bargain.decider with
    | listedPrice =>
      obtain ⟨decision, decides, answer⟩ := listedPrice_minimizes bargain.loads
        bargain.minimizes terms.ceiling_eq named there proposes
      exact ⟨decision, decides, answer.imp_right .inl⟩
    | bisection =>
      exact bisection_minimizes bargain.minimizes terms.ceiling_eq countered named there proposes

theorem Terms.seller_decides (terms : Terms bargain opening reference ceiling) {amount : ℕ}
    {transcript : List Turn}
    (talked : Talked bargain opening reference ceiling .buyer amount transcript) :
    ∃ decision, bargain.decides .seller transcript = .ok decision ∧
      (decision.action = .exit ∨
        decision.action = .accept ∧ countersOf .seller transcript < bargain.seller.maxRounds ∧
          reference * 99 ≤ amount * 100 ∨
        decision.action = .counter ∧ countersOf .seller transcript < bargain.seller.maxRounds ∧
          ∃ proposal ours, decision.proposal = some proposal ∧
            amountFromProposal (some proposal) = .ok (some ours) ∧
            amount ≤ ours ∧ 5 * reference ≤ 6 * ours + 3) := by
  obtain ⟨counters, countered, count⟩ := ourPreviousCounters_view .seller talked.proposes
  obtain ⟨before, turn, rfl, buyers, proposes⟩ := talked.last
  obtain ⟨named, there⟩ := theirs_of_last .seller before (by rw [buyers]; decide) proposes
  rw [← count]
  obtain ⟨taker, number, action, proposal⟩ := turn
  cases proposal with
  | none => cases proposes
  | some last =>
    exact bisection_maximizes bargain.maximizes terms.reference_eq countered named there proposes

theorem Terms.opening_decides (terms : Terms bargain opening reference ceiling) :
    (bargain.decider = .bisection ∧ bargain.buyer.maxRounds = 0 ∧
        bargain.decides .buyer [] = .ok ⟨.exit, none, some "max_rounds"⟩) ∨
      (bargain.decider = .bisection → 0 < bargain.buyer.maxRounds) ∧
        ∃ first, bargain.decides .buyer [] = .ok ⟨.counter, some first, none⟩ ∧
          amountFromProposal (some first) = .ok (some opening) := by
  obtain ⟨first, opens, proposes⟩ := terms.opens
  unfold Bargain.decides Decider.decide
  cases bargain.decider with
  | listedPrice =>
    refine .inr ⟨(fun never => by cases never), first, ?_, proposes⟩
    exact bind_eq_ok.mpr ⟨first, opens, rfl⟩
  | bisection =>
    by_cases spent : bargain.buyer.maxRounds = 0
    · refine .inl ⟨rfl, spent, bind_eq_ok.mpr ⟨[], rfl, ?_⟩⟩
      rw [if_pos (by rw [spent]; exact Nat.zero_le _)]
      rfl
    · refine .inr ⟨fun _ => Nat.pos_of_ne_zero spent, first, bind_eq_ok.mpr ⟨[], rfl, ?_⟩,
        proposes⟩
      rw [if_neg (by simpa using spent)]
      exact bind_eq_ok.mpr ⟨none, rfl, bind_eq_ok.mpr ⟨first, opens, rfl⟩⟩

/-- One message: the run stands where it may stand, and has not ended or has one turn more. -/
theorem Terms.step (terms : Terms bargain opening reference ceiling) {talks : Talks}
    (reached : Reached bargain opening reference ceiling talks) :
    ∃ next, bargain.step talks = .ok next ∧ Reached bargain opening reference ceiling next ∧
      (next.ending = none → talks.ending = none ∧
        next.transcript.length = talks.transcript.length + 1) := by
  have stays : ∀ {transcript ending}, Reached bargain opening reference ceiling
      ⟨transcript, some ending⟩ → ∃ next, bargain.step ⟨transcript, some ending⟩ = .ok next ∧
        Reached bargain opening reference ceiling next ∧ (next.ending = none →
          some ending = none ∧ next.transcript.length = transcript.length + 1) :=
    fun reached => ⟨_, rfl, reached, fun going => by cases going⟩
  cases reached with
  | start =>
    rcases terms.opening_decides with ⟨_, _, decides⟩ | ⟨rounds, first, decides, proposes⟩
    · refine ⟨_, bind_eq_ok.mpr ⟨_, decides, rfl⟩, .unopened, fun going => by cases going⟩
    · refine ⟨_, bind_eq_ok.mpr ⟨_, decides, rfl⟩, ?_, fun _ => ⟨rfl, rfl⟩⟩
      exact .talking (.opened rounds rfl rfl proposes)
  | unopened => exact stays .unopened
  | left leaver talked => exact stays (.left leaver talked)
  | bought talked within => exact stays (.bought talked within)
  | sold talked rounds above => exact stays (.sold talked rounds above)
  | @talking side amount transcript talked =>
    have filled : transcript ≠ [] := by
      obtain ⟨before, turn, rfl, -⟩ := talked.last
      simp
    have turns := talked.mover_eq
    cases side with
    | buyer =>
      rw [if_pos rfl] at turns
      obtain ⟨decision, decides, answer⟩ := terms.seller_decides talked
      have carried : bargain.step ⟨transcript, none⟩ =
          bargain.carry .seller transcript decision := by
        unfold Bargain.step
        dsimp only
        rw [turns, decides]
        rfl
      rw [carried]
      unfold Bargain.carry
      rcases answer with exits | ⟨accepts, rounds, above⟩ |
        ⟨counters, rounds, proposal, ours, proposed, proposes, above, least⟩
      · rw [exits]
        exact ⟨_, rfl, .left _ talked, fun going => by cases going⟩
      · rw [accepts]
        obtain ⟨before, turn, rfl, buyers, proposes⟩ := talked.last
        have named := (theirs_of_last .seller before (by rw [buyers]; decide)
          proposes).1
        have settled : bargain.settles .seller (before ++ [turn]) = .ok (.agreed amount) := by
          unfold Bargain.settles
          rw [named]
          rfl
        exact ⟨_, map_eq_ok.mpr ⟨_, settled, rfl⟩, .sold talked rounds above,
          fun going => by cases going⟩
      · rw [counters, proposed]
        dsimp only
        rw [if_neg filled]
        refine ⟨_, rfl, .talking (.answered talked rounds rfl rfl proposes above least),
          fun _ => ⟨rfl, ?_⟩⟩
        rw [List.length_append, List.length_singleton]
    | seller =>
      rw [if_neg (by decide)] at turns
      obtain ⟨decision, decides, answer⟩ := terms.buyer_decides talked
      have carried : bargain.step ⟨transcript, none⟩ =
          bargain.carry .buyer transcript decision := by
        unfold Bargain.step
        dsimp only
        rw [turns, decides]
        rfl
      rw [carried]
      unfold Bargain.carry
      rcases answer with exits | ⟨accepts, within⟩ |
        ⟨counters, rounds, proposal, ours, proposed, proposes, within⟩
      · rw [exits]
        exact ⟨_, rfl, .left _ talked, fun going => by cases going⟩
      · rw [accepts]
        have settled : bargain.settles .buyer transcript = .ok (.agreed amount) := by
          cases talked with
          | @answered before turn _ _ _ _ sellers counters proposes _ _ =>
            unfold Bargain.settles
            rw [List.reverse_append, List.reverse_singleton, List.singleton_append]
            refine map_eq_ok.mpr ⟨amount, ?_, rfl⟩
            rw [lastSellerAmount, if_pos ⟨counters, sellers⟩]
            exact bind_eq_ok.mpr ⟨_, proposes, rfl⟩
        exact ⟨_, map_eq_ok.mpr ⟨_, settled, rfl⟩, .bought talked within,
          fun going => by cases going⟩
      · rw [counters, proposed]
        dsimp only
        rw [if_neg filled]
        refine ⟨_, rfl, .talking (.countered talked rounds rfl rfl proposes within),
          fun _ => ⟨rfl, ?_⟩⟩
        rw [List.length_append, List.length_singleton]

theorem Terms.run (terms : Terms bargain opening reference ceiling) (messages : ℕ) :
    ∃ talks, bargain.run messages = .ok talks ∧ Reached bargain opening reference ceiling talks ∧
      (talks.ending = none → talks.transcript.length = messages) := by
  induction messages with
  | zero => exact ⟨_, rfl, .start, fun _ => rfl⟩
  | succ messages ih =>
    obtain ⟨talks, ran, reached, length⟩ := ih
    obtain ⟨next, stepped, stands, grows⟩ := terms.step reached
    refine ⟨next, bind_eq_ok.mpr ⟨talks, ran, stepped⟩, stands, fun going => ?_⟩
    obtain ⟨went, one⟩ := grows going
    rw [one, length went]

theorem Terms.sells_opening (terms : Terms bargain opening reference ceiling)
    (above : reference * 99 ≤ opening * 100) (asks : bargain.seller.maxRounds ≠ 0)
    (opens : ¬ (bargain.decider = .bisection ∧ bargain.buyer.maxRounds = 0)) :
    ∃ transcript, bargain.run 2 = .ok ⟨transcript, some (.agreed opening)⟩ := by
  rcases terms.opening_decides with ⟨bisects, spent, -⟩ | ⟨-, first, decides, proposes⟩
  · exact absurd ⟨bisects, spent⟩ opens
  have opened : bargain.run 1 = .ok ⟨[⟨.buyer, 0, .initial, some first⟩], none⟩ :=
    bind_eq_ok.mpr ⟨_, rfl, bind_eq_ok.mpr ⟨_, decides, rfl⟩⟩
  have read := @theirs_of_last .seller [] ⟨.buyer, 0, .initial, some first⟩ _
    (show Side.buyer ≠ Side.seller by decide) proposes
  rw [List.nil_append] at read
  obtain ⟨named, there⟩ := read
  obtain ⟨written, set, -⟩ :=
    exists_setProposalAmount proposes (Int.natCast_nonneg opening)
  have answers : bargain.decides .seller [⟨.buyer, 0, .initial, some first⟩] =
      .ok ⟨.accept, some written, some "convergence"⟩ := by
    unfold Bargain.decides
    dsimp only
    rw [@bisection_of_amount _ _ _ [] _ _ rfl named there, if_neg (by simpa using asks),
      if_neg (by simp), bargain.maximizes, terms.reference_eq]
    dsimp only
    rw [if_pos (by omega)]
    exact map_eq_ok.mpr ⟨written, set, rfl⟩
  have settled : bargain.settles .seller [⟨.buyer, 0, .initial, some first⟩] =
      .ok (.agreed opening) := by
    unfold Bargain.settles
    rw [named]
    rfl
  refine ⟨[⟨.buyer, 0, .initial, some first⟩], bind_eq_ok.mpr ⟨_, opened, ?_⟩⟩
  exact bind_eq_ok.mpr ⟨_, answers, map_eq_ok.mpr ⟨_, settled, rfl⟩⟩

end Runs

/-! ## What is agreed -/

/-- A bargain settles within its bounds: no message of a run raises; every run ends; neither side
counters more often than its rounds; the seller answers with no less than the buyer's last
amount and the buyer, behind its opening, with no more than its ceiling; and what is agreed is
no less than the seller's share of its reference, and within the ceiling. -/
structure Settles (bargain : Bargain) (reference ceiling : ℕ) : Prop where
  runs : ∀ messages, ∃ talks, bargain.run messages = .ok talks
  ends : ∃ messages talks, bargain.run messages = .ok talks ∧ talks.ending ≠ none
  rounds : ∀ messages talks, bargain.run messages = .ok talks →
    countersOf .buyer talks.transcript ≤ bargain.buyer.maxRounds ∧
      countersOf .seller talks.transcript ≤ bargain.seller.maxRounds
  follows : ∀ messages talks, bargain.run messages = .ok talks →
    talks.transcript.IsChain (Follows ceiling)
  agreed : ∀ messages talks amount, bargain.run messages = .ok talks →
    talks.ending = some (.agreed amount) →
      6 * amount ≥ 5 * reference - 3 ∧
        match bargain.decider with
        | .bisection => 100 * amount ≤ 101 * ceiling
        | .listedPrice => amount ≤ ceiling

def Binds (bargain : Bargain) (opening reference ceiling : ℕ) : Prop :=
  bargain.decider.Within opening ceiling ∨ opening * 100 < reference * 99 ∨
    bargain.seller.maxRounds = 0 ∨ bargain.decider = .bisection ∧ bargain.buyer.maxRounds = 0

section Agreed

variable {bargain : Bargain} {opening reference ceiling : ℕ}

theorem Reached.transcript {talks : Talks}
    (reached : Reached bargain opening reference ceiling talks) :
    talks.transcript = [] ∨
      ∃ side amount, Talked bargain opening reference ceiling side amount talks.transcript := by
  cases reached with
  | start => exact .inl rfl
  | unopened => exact .inl rfl
  | talking talked => exact .inr ⟨_, _, talked⟩
  | left _ talked => exact .inr ⟨_, _, talked⟩
  | bought talked _ => exact .inr ⟨_, _, talked⟩
  | sold talked _ _ => exact .inr ⟨_, _, talked⟩

theorem Decider.within_of_le {decider : Decider} {amount ceiling : ℕ} (within : amount ≤ ceiling) :
    decider.Within amount ceiling := by
  cases decider with
  | listedPrice => exact within
  | bisection =>
    change amount * 100 ≤ ceiling * 101
    omega

theorem Reached.agreed {talks : Talks} {amount : ℤ}
    (reached : Reached bargain opening reference ceiling talks)
    (binds : Binds bargain opening reference ceiling)
    (agreed : talks.ending = some (.agreed amount)) :
    ∃ price : ℕ, amount = price ∧ 5 * reference ≤ 6 * price + 3 ∧
      bargain.decider.Within price ceiling := by
  cases reached with
  | start => cases agreed
  | unopened => cases agreed
  | talking _ => cases agreed
  | left _ _ => cases agreed
  | bought talked within =>
    cases agreed
    exact ⟨_, rfl, talked.asked, within⟩
  | sold talked rounds above =>
    cases agreed
    refine ⟨_, rfl, by omega, ?_⟩
    rcases talked.offered with rfl | within
    · rcases binds with within | below | spent | ⟨bisects, spent⟩
      · exact within
      · omega
      · omega
      · have opened := talked.opens bisects
        omega
    · exact Decider.within_of_le within

/-- **Bargaining bounds.** Two such sides settle within their bounds exactly where the buyer's
opening is itself within what the buyer agrees to, or is not accepted. -/
theorem bargaining_iff (bargain : Bargain) (opening reference ceiling : ℕ)
    (terms : Terms bargain opening reference ceiling) :
    Settles bargain reference ceiling ↔ Binds bargain opening reference ceiling := by
  constructor
  · intro settles
    by_contra unbound
    rw [Binds, not_or, not_or, not_or, not_lt] at unbound
    obtain ⟨beyond, above, asks, opens⟩ := unbound
    obtain ⟨transcript, ran⟩ := terms.sells_opening above asks opens
    refine beyond ?_
    have bounds := (settles.agreed 2 _ opening ran rfl).2
    unfold Decider.Within
    revert bounds
    cases bargain.decider with
    | listedPrice =>
      intro bounds
      dsimp only at bounds ⊢
      omega
    | bisection =>
      intro bounds
      dsimp only at bounds ⊢
      omega
  · intro binds
    have stands : ∀ {messages talks}, bargain.run messages = .ok talks →
        Reached bargain opening reference ceiling talks ∧
          (talks.ending = none → talks.transcript.length = messages) := by
      intro messages talks ran
      obtain ⟨others, same, reached, length⟩ := terms.run messages
      cases ran.symm.trans same
      exact ⟨reached, length⟩
    have rounds : ∀ {messages talks}, bargain.run messages = .ok talks →
        countersOf .buyer talks.transcript ≤ bargain.buyer.maxRounds ∧
          countersOf .seller talks.transcript ≤ bargain.seller.maxRounds ∧
          talks.transcript.length ≤ 2 * bargain.seller.maxRounds + 1 := by
      intro messages talks ran
      rcases (stands ran).1.transcript with empty | ⟨side, amount, talked⟩
      · rw [empty]
        exact ⟨Nat.zero_le _, Nat.zero_le _, Nat.zero_le _⟩
      · obtain ⟨buyers, sellers, length⟩ := talked.rounds
        refine ⟨buyers, sellers, ?_⟩
        split at length <;> omega
    refine ⟨fun messages => ?_, ?_, fun messages talks ran => ?_, fun messages talks ran => ?_,
      fun messages talks amount ran agreed => ?_⟩
    · obtain ⟨talks, ran, -⟩ := terms.run messages
      exact ⟨talks, ran⟩
    · obtain ⟨talks, ran, -, length⟩ := terms.run (2 * bargain.seller.maxRounds + 2)
      refine ⟨_, talks, ran, fun going => ?_⟩
      have most := (rounds ran).2.2
      rw [length going] at most
      omega
    · exact ⟨(rounds ran).1, (rounds ran).2.1⟩
    · rcases (stands ran).1.transcript with empty | ⟨side, amount, talked⟩
      · rw [empty]
        exact List.isChain_nil
      · exact talked.follows
    · obtain ⟨price, rfl, least, within⟩ := (stands ran).1.agreed binds agreed
      refine ⟨by omega, ?_⟩
      unfold Decider.Within at within
      revert within
      cases bargain.decider with
      | listedPrice =>
        intro within
        dsimp only at within ⊢
        omega
      | bisection =>
        intro within
        dsimp only at within ⊢
        omega

end Agreed

def amountContext (direction : Direction) (reference : ℤ) (opening : Option ℤ) :
    NegotiationContext where
  direction := direction
  ourReferenceAmount := reference
  ourOpeningAmount := opening
  listing := []
  ourEscrowProposal := some [("fields", .obj [("amount", .str "1")])]
  maxRounds := 10
  intermediate := []

/-- A buyer with a ceiling of a hundred and a seller that asks for a hundred and fifty. -/
def overOpening (opening : ℤ) : Bargain where
  loads := fun _ => none
  decider := .bisection
  buyer := amountContext .minimize 100 (some opening)
  seller := amountContext .maximize 150 none
  minimizes := rfl
  maximizes := rfl

theorem overOpening_terms : Terms (overOpening 90) 90 150 100 :=
  ⟨rfl, rfl, _, rfl, rfl⟩

/-- An opening of ninety binds: it is within the ceiling. -/
theorem bargaining_iff_ninety : Settles (overOpening 90) 150 100 :=
  (bargaining_iff (overOpening 90) 90 150 100 overOpening_terms).mpr
    (.inl (show 90 * 100 ≤ 100 * 101 by decide))

/-- An opening of two hundred under a ceiling of a hundred is accepted, at twice the ceiling. -/
theorem overOpening_agreed :
    (∃ transcript, (overOpening 200).run 2 = .ok ⟨transcript, some (.agreed 200)⟩) ∧
      ¬ Settles (overOpening 200) 150 100 := by
  have ran : ∃ transcript, (overOpening 200).run 2 = .ok ⟨transcript, some (.agreed 200)⟩ :=
    ⟨_, rfl⟩
  refine ⟨ran, fun settles => ?_⟩
  obtain ⟨transcript, ran⟩ := ran
  have bound : 100 * (200 : ℤ) ≤ 101 * (100 : ℕ) := (settles.agreed 2 _ 200 ran rfl).2
  exact absurd bound (by decide)

end ComputeMarket.Buyer
