import ComputeMarket.Buyer.Negotiation
import ComputeMarket.Library.Run

/-!
# The buyer's own offer

The amount that a negotiation agrees on against the amount of the last proposal that the buyer
sent, and against its ceiling (`keepsOffer_iff`). The seller's accepting reply may name an amount,
which the buyer compares with the seller's own Agreement and plan alone.
-/

namespace ComputeMarket.Buyer

open DecimalArithmetic (Decimal)

/-! ## Amounts of proposals -/

variable {proposal : Proposal}

theorem pythonSpace_of_isDigit {c : Char} (digit : c.isDigit = true) :
    Middleware.pythonSpace c = false := by
  have digits : ∀ n < 10, Middleware.pythonSpace (Char.ofNat (48 + n)) = false := by decide
  obtain ⟨above, below⟩ := Char.isDigit_iff_toNat.mp digit
  have zero : '0'.toNat = 48 := rfl
  have nine : '9'.toNat = 57 := rfl
  have same : Char.ofNat (48 + (c.toNat - 48)) = c := by
    rw [Nat.add_sub_cancel' (zero ▸ above), Char.ofNat_toNat]
  exact same ▸ digits (c.toNat - 48) (by omega)

theorem strip_of_digits {text : List Char} (digits : text.all Char.isDigit = true) :
    Middleware.strip Middleware.pythonSpace text = text := by
  have solid : ∀ c ∈ text, ¬ Middleware.pythonSpace c = true := fun c among space => by
    rw [pythonSpace_of_isDigit (List.all_eq_true.mp digits c among)] at space
    cases space
  have front : text.dropWhile Middleware.pythonSpace = text :=
    List.dropWhile_eq_self_iff.mpr fun filled => solid _ (List.getElem_mem filled)
  rw [Middleware.strip, front]
  exact List.rdropWhile_eq_self_iff.mpr fun filled => solid _ (List.getLast_mem filled)

theorem parse_of_format {amount : ℤ} {formatted : Json}
    (format : formatWireAmount amount = .ok formatted) :
    0 ≤ amount ∧ parseWireAmount formatted = .ok (some amount.toNat) := by
  unfold formatWireAmount at format
  split at format
  · cases format
  next positive =>
  cases format
  have digits : (Nat.toDigits 10 amount.toNat).all Char.isDigit = true :=
    List.all_eq_true.mpr fun c among => Nat.isDigit_of_mem_toDigits (by decide) (by decide) among
  have filled : Nat.toDigits 10 amount.toNat ≠ [] := Nat.toDigits_ne_nil
  refine ⟨not_lt.mp positive, ?_⟩
  simp only [parseWireAmount, String.toList_ofList, strip_of_digits digits, filled, digits,
    if_false, if_true, Nat.ofDigitChars_ten_toDigits]

theorem fieldsOf_put (proposal : Proposal) {fields : Fields Json} (filled : fields ≠ []) :
    fieldsOf (proposal.put "fields" (.obj fields)) = .obj fields := by
  have there : Json.get (proposal.put "fields" (.obj fields)) "fields" = .obj fields := by
    rw [Json.get, Fields.find_put_self, Option.getD_some]
  have counts : (Json.obj fields).truthy = true := by
    cases fields with
    | nil => exact absurd rfl filled
    | cons _ _ => rfl
  rw [fieldsOf, there, if_pos counts]

theorem Fields.put_ne_nil (fields : Fields Json) (key : String) (value : Json) :
    fields.put key value ≠ [] := by
  cases fields with
  | nil => exact List.cons_ne_nil _ _
  | cons member rest =>
    obtain ⟨name, old⟩ := member
    rw [Fields.put]
    split <;> exact List.cons_ne_nil _ _

theorem amountOf_put (proposal : Proposal) (fields : Fields Json) {amount : ℤ} {formatted : Json}
    (format : formatWireAmount amount = .ok formatted) :
    0 ≤ amount ∧ amountOf (some (proposal.put "fields" (.obj (fields.put "amount" formatted)))) =
      .ok (some amount.toNat) := by
  obtain ⟨positive, read⟩ := parse_of_format format
  refine ⟨positive, ?_⟩
  rw [amountOf, fieldsOf_put _ (Fields.put_ne_nil fields "amount" formatted)]
  simp only [Json.get, Fields.find_put_self, Option.getD_some, read]

theorem amountOf_setProposalAmount {written : Proposal} {amount : ℤ}
    (set : setProposalAmount proposal amount = .ok written) :
    0 ≤ amount ∧ amountOf (some written) = .ok (some amount.toNat) := by
  obtain ⟨fields, _, set⟩ := bind_eq_ok.mp set
  obtain ⟨formatted, format, set⟩ := bind_eq_ok.mp set
  cases set
  exact amountOf_put proposal fields format

theorem amountOf_wireProposal {wire : Proposal} (wired : wireProposal proposal = .ok wire) :
    amountOf (some wire) = amountOf (some proposal) := by
  unfold wireProposal at wired
  split at wired
  · next fields there =>
    obtain ⟨amount, read, wired⟩ := bind_eq_ok.mp wired
    cases amount with
    | none =>
      cases wired
      rfl
    | some amount =>
      obtain ⟨formatted, format, wired⟩ := bind_eq_ok.mp wired
      cases wired
      have filled : fields ≠ [] := by
        rintro rfl
        cases read
      have counts : (Json.obj fields).truthy = true := by
        cases fields with
        | nil => exact absurd rfl filled
        | cons _ _ => rfl
      rw [(amountOf_put proposal fields format).2, amountOf, fieldsOf, there, if_pos counts]
      exact read.symm
  · cases wired
    rfl

/-! ## The deciders -/

variable {history : List NegotiationRound} {loads : Loads} {context : NegotiationContext}
    {decision : NegotiationDecision} {theirs ceiling : ℕ}

theorem firstAmount_of_no_proposal {rounds : List NegotiationRound}
    (nothing : rounds.findSome? (fun round => if round.sender = .them then round.proposal else none) =
      none) : firstAmount rounds = .ok none := by
  induction rounds with
  | nil => rfl
  | cons round rest ih =>
    rw [List.findSome?_eq_none_iff] at nothing
    have later := ih (List.findSome?_eq_none_iff.mpr fun other among =>
      nothing other (List.mem_cons_of_mem _ among))
    have here := nothing round List.mem_cons_self
    rw [firstAmount]
    split
    · next them =>
      rw [if_pos them] at here
      rw [here, amountFromProposal]
      exact later
    · exact later

theorem proposal_of_amount {amount : ℕ} (named : theirProposedAmount history = .ok (some amount)) :
    ∃ proposal, theirLastProposal history = some proposal := by
  rcases nothing : theirLastProposal history with _ | proposal
  · rw [theirProposedAmount, firstAmount_of_no_proposal nothing] at named
    cases named
  · exact ⟨proposal, rfl⟩

def Decider.Within (decider : Decider) (amount ceiling : ℕ) : Prop :=
  match decider with
  | .listedPrice => amount ≤ ceiling
  | .bisection => amount * 100 ≤ ceiling * 101

theorem listedPrice_within (decides : listedPriceMiddleware loads history context = .ok decision)
    (named : theirProposedAmount history = .ok (some theirs))
    (minimizes : context.direction = .minimize) (reference : context.ourReferenceAmount = ceiling)
    (proposes : decision.proposal = some proposal) :
    ∃ amount, amountOf (some proposal) = .ok (some amount) ∧ amount ≤ ceiling := by
  obtain ⟨last, there⟩ := proposal_of_amount named
  rw [listedPriceMiddleware, there] at decides
  obtain ⟨read, same, decides⟩ := bind_eq_ok.mp decides
  cases named.symm.trans same
  simp only [minimizes, reference, decide_eq_true_eq] at decides
  split at decides
  · next within =>
    obtain ⟨written, set, decides⟩ := bind_eq_ok.mp decides
    cases decides
    cases proposes
    exact ⟨_, (amountOf_setProposalAmount set).2, by omega⟩
  · cases decides
    cases proposes

theorem bisection_within (decides : bisectionMiddleware loads history context = .ok decision)
    (named : theirProposedAmount history = .ok (some theirs))
    (minimizes : context.direction = .minimize) (reference : context.ourReferenceAmount = ceiling)
    (proposes : decision.proposal = some proposal) :
    ∃ amount, amountOf (some proposal) = .ok (some amount) ∧ amount * 100 ≤ ceiling * 101 := by
  obtain ⟨counters, _, decides⟩ := bind_eq_ok.mp decides
  split at decides
  · cases decides
    cases proposes
  split at decides
  · cases decides
    cases proposes
  obtain ⟨read, same, decides⟩ := bind_eq_ok.mp decides
  cases named.symm.trans same
  simp only [minimizes, reference] at decides
  split at decides
  · next converges =>
    obtain ⟨written, set, decides⟩ := bind_eq_ok.mp decides
    cases decides
    cases proposes
    exact ⟨_, (amountOf_setProposalAmount set).2, by omega⟩
  split at decides
  · obtain ⟨written, set, decides⟩ := bind_eq_ok.mp decides
    cases decides
    cases proposes
    obtain ⟨_, amount⟩ := amountOf_setProposalAmount set
    have least := min_le_right (((ceiling : ℤ) + theirs) / 2) ceiling
    exact ⟨_, amount, by omega⟩
  · cases decides
    cases proposes

theorem Decider.within_of_decide {decider : Decider}
    (decides : decider.decide loads history context = .ok decision)
    (named : theirProposedAmount history = .ok (some theirs))
    (minimizes : context.direction = .minimize) (reference : context.ourReferenceAmount = ceiling)
    (proposes : decision.proposal = some proposal) :
    ∃ amount, amountOf (some proposal) = .ok (some amount) ∧ decider.Within amount ceiling := by
  cases decider with
  | listedPrice => exact listedPrice_within decides named minimizes reference proposes
  | bisection => exact bisection_within decides named minimizes reference proposes

theorem runMiddlewares_append {guards rest : List NegotiationMiddleware} {left : NegotiationContext}
    (passed : runMiddlewares history guards context = .ok (none, left)) :
    runMiddlewares history (guards ++ rest) context = runMiddlewares history rest left := by
  induction guards generalizing context with
  | nil =>
    cases passed
    rfl
  | cons guard guards ih =>
    obtain ⟨⟨first, middle⟩, step, passed⟩ := bind_eq_ok.mp passed
    rw [List.cons_append, runMiddlewares, step]
    cases first with
    | some other => cases passed
    | none => exact ih passed

theorem decide_of_passed {guards : List NegotiationMiddleware} {left : NegotiationContext}
    {decider : Decider} (passed : runMiddlewares history guards context = .ok (none, left))
    (decides : runNegotiationChain (guards ++ [decider.middleware loads]) history context =
      .ok decision) : decider.decide loads history left = .ok decision := by
  rw [runNegotiationChain, runMiddlewares_append passed] at decides
  obtain ⟨_, run, decides⟩ := bind_eq_ok.mp decides
  obtain ⟨_, step, run⟩ := bind_eq_ok.mp run
  obtain ⟨answer, decided, step⟩ := bind_eq_ok.mp step
  cases step
  cases run
  cases decides
  exact decided

/-! ## What a negotiation agrees on -/

def Round.named (round : Round) : Except BuyerError (Option ℕ) :=
  amountOf (asProposal (Json.get round.reply "proposal"))

namespace Parameters

variable {loop : Loop} {trusted : List Identity} {data : Option (Fields Json)}
    {exchanges : List Exchange} {round : Round} {settled : Settled} {initial : ℕ}

variable (parameters : Parameters)

def Ceiling (ceiling : ℕ) : Prop :=
  scaledBaseUnits parameters.maxPrice (parameters.units.getD ⟨1, 0⟩) "max_price" = .ok ceiling

def Initial (initial : ℕ) : Prop :=
  scaledBaseUnits parameters.initialPrice (parameters.units.getD ⟨1, 0⟩) "initial_price" =
    .ok initial

structure Played (round : Round) : Prop where
  decided : runNegotiationChain (parameters.chain.middlewares parameters.schemas.loads round.turn)
    round.history round.context = .ok round.decision
  proposed : ∃ proposal wire, round.decision.proposal = some proposal ∧
    wireProposal proposal = .ok wire ∧ round.body.proposal = some wire
  reference : ∃ ceiling : ℕ, parameters.Ceiling ceiling ∧ round.context.ourReferenceAmount = ceiling
  opening : round.turn = 0 → round.history = []

structure Agreed (settled : Settled) (round : Round) : Prop where
  last : settled.last = some round
  sent : settled.sent.getLast? = some round.body
  played : parameters.Played round
  amount : ∃ named, round.named = .ok named ∧
    (named.isSome = true → settled.outcome.agreedAmount = named) ∧
    (named = none → round.turn = 0 → ∃ initial, parameters.Initial initial ∧
      settled.outcome.agreedAmount =
        if parameters.settlementSelection.isNone then some initial else none) ∧
    (named = none → round.turn ≠ 0 →
      amountOf round.decision.proposal = .ok settled.outcome.agreedAmount)

theorem agreeOn_agrees {terms : AcceptedTerms} {agreement : Agreement} {encoded : String}
    {agreedAmount : Option ℕ}
    (agrees : parameters.agreeOn loop round trusted data terms agreement encoded agreedAmount =
      .ok settled) :
    settled.last = some round ∧ settled.sent.getLast? = some round.body ∧
      settled.outcome.agreedAmount = agreedAmount := by
  unfold agreeOn at agrees
  simp only at agrees
  split at agrees
  · obtain ⟨_, _, agrees⟩ := bind_eq_ok.mp agrees
    cases agrees
    exact ⟨rfl, List.getLast?_concat, rfl⟩
  · obtain ⟨_, _, agrees⟩ := bind_eq_ok.mp agrees
    obtain ⟨_, _, agrees⟩ := bind_eq_ok.mp agrees
    cases agrees
    exact ⟨rfl, List.getLast?_concat, rfl⟩

theorem agree_agreed (agrees : parameters.agree loop round trusted data = .ok settled)
    (played : parameters.Played round) (later : round.turn ≠ 0) :
    parameters.Agreed settled round := by
  obtain ⟨terms, _, agrees⟩ := bind_eq_ok.mp agrees
  obtain ⟨_, _, agrees⟩ := bind_eq_ok.mp agrees
  obtain ⟨⟨agreement, encoded⟩, _, agrees⟩ := bind_eq_ok.mp agrees
  obtain ⟨named, reads, agrees⟩ := bind_eq_ok.mp agrees
  cases named with
  | some amount =>
    obtain ⟨last, sent, agreed⟩ := agreeOn_agrees parameters agrees
    exact ⟨last, sent, played, some amount, reads, fun _ => agreed, nofun, nofun⟩
  | none =>
    obtain ⟨proposed, read, agrees⟩ := bind_eq_ok.mp agrees
    obtain ⟨last, sent, agreed⟩ := agreeOn_agrees parameters agrees
    exact ⟨last, sent, played, none, reads, nofun, fun _ opens => absurd opens later,
      fun _ _ => agreed ▸ read⟩

theorem answer_agreed (answers : parameters.answer loop round trusted = .ok (.inl settled))
    (agreed : settled.outcome.status = .agreed) (later : round.turn ≠ 0)
    (played : (round.decision.action = .accept ∨ round.decision.action = .counter) →
      parameters.Played round) : parameters.Agreed settled round := by
  unfold answer at answers
  simp only at answers
  split at answers
  · cases answers
    cases agreed
  obtain ⟨data, _, answers⟩ := bind_eq_ok.mp answers
  have agrees : ∀ {result : Except BuyerError Settled}, result = parameters.agree loop round trusted data →
      (do return .inl (← result) : Except BuyerError (Settled ⊕ Loop)) = .ok (.inl settled) →
      parameters.Played round → parameters.Agreed settled round := by
    rintro _ rfl agrees played
    obtain ⟨_, agrees, same⟩ := bind_eq_ok.mp agrees
    cases same
    exact agree_agreed parameters agrees played later
  cases action : round.decision.action with
  | accept =>
    simp only [action] at answers
    split at answers
    · exact agrees rfl answers (played (.inl action))
    · cases answers
      cases agreed
  | exit | reject =>
    simp only [action] at answers
    cases answers
    cases agreed
  | counter =>
    simp only [action] at answers
    split at answers
    · exact agrees rfl answers (played (.inr action))
    split at answers
    · cases answers
      cases agreed
    split at answers <;> cases answers

theorem loopContext_reference {pinned : Option Proposal}
    (there : parameters.loopContext pinned = .ok context) :
    ∃ ceiling : ℕ, parameters.Ceiling ceiling ∧ context.ourReferenceAmount = ceiling := by
  obtain ⟨ceiling, reads, there⟩ := bind_eq_ok.mp there
  obtain ⟨initial, _, there⟩ := bind_eq_ok.mp there
  cases there
  exact ⟨ceiling, reads, rfl⟩

theorem orRaise_eq_ok {α : Type} {read : Option α} {raised : BuyerError} {value : α}
    (reads : orRaise read raised = .ok value) : read = some value := by
  cases read <;> cases reads
  rfl

theorem move_played {body : Body} {reply : Reply}
    (moves : parameters.move loop = .ok (history, context, decision, body))
    (later : loop.roundIdx ≠ 0)
    (proposes : decision.action = .accept ∨ decision.action = .counter) :
    parameters.Played ⟨loop.roundIdx, history, context, decision, body, reply⟩ := by
  obtain ⟨counter, _, moves⟩ := bind_eq_ok.mp moves
  obtain ⟨seen, there, moves⟩ := bind_eq_ok.mp moves
  obtain ⟨made, decides, moves⟩ := bind_eq_ok.mp moves
  have reference := loopContext_reference parameters there
  have proposed : ∀ {action : DecisionAction}, (do
        let proposal ← orRaise made.proposal
          (.runtime "chain returned a decision without a proposal")
        let proposal ← wireProposal proposal
        pure (roundHistory loop.transcript counter, seen, made,
          Body.continue action parameters.principal (some proposal) none)) =
      Except.ok (history, context, decision, body) →
      parameters.Played ⟨loop.roundIdx, history, context, decision, body, reply⟩ := by
    intro action moves
    obtain ⟨proposal, there, moves⟩ := bind_eq_ok.mp moves
    obtain ⟨wire, wired, moves⟩ := bind_eq_ok.mp moves
    cases moves
    exact ⟨decides, ⟨proposal, wire, orRaise_eq_ok there, wired, rfl⟩, reference,
      fun opens => absurd opens later⟩
  cases action : made.action with
  | counter | accept =>
    simp only [action] at moves
    exact proposed moves
  | exit | reject =>
    simp only [action] at moves
    cases moves
    rw [action] at proposes
    rcases proposes with other | other <;> cases other

theorem round_agreed {exchange : Exchange}
    (plays : parameters.round loop exchange = .ok (.inl settled))
    (agreed : settled.outcome.status = .agreed) (later : loop.roundIdx ≠ 0) :
    ∃ round, parameters.Agreed settled round := by
  obtain ⟨⟨history, context, decision, body⟩, moves, plays⟩ := bind_eq_ok.mp plays
  obtain ⟨trusted, _, plays⟩ := bind_eq_ok.mp plays
  obtain ⟨reply, _, plays⟩ := bind_eq_ok.mp plays
  exact ⟨_, answer_agreed parameters plays agreed later (move_played parameters moves later)⟩

theorem answer_goes_on {next : Loop}
    (answers : parameters.answer loop round trusted = .ok (.inr next)) : next.roundIdx ≠ 0 := by
  unfold answer at answers
  simp only at answers
  split at answers
  · cases answers
  obtain ⟨data, _, answers⟩ := bind_eq_ok.mp answers
  have never : ∀ {result : Except BuyerError Settled},
      (do return .inl (← result) : Except BuyerError (Settled ⊕ Loop)) ≠ .ok (.inr next) := by
    intro result answers
    obtain ⟨_, _, same⟩ := bind_eq_ok.mp answers
    cases same
  cases action : round.decision.action with
  | accept =>
    simp only [action] at answers
    split at answers
    · exact absurd answers never
    · cases answers
  | exit | reject =>
    simp only [action] at answers
    cases answers
  | counter =>
    simp only [action] at answers
    split at answers
    · exact absurd answers never
    split at answers
    · cases answers
    obtain ⟨-, answers⟩ := refuse_eq_ok.mp answers
    cases answers
    exact Nat.succ_ne_zero _

theorem rounds_agreed (plays : parameters.rounds loop exchanges = .ok settled)
    (agreed : settled.outcome.status = .agreed) (later : loop.roundIdx ≠ 0) :
    ∃ round, parameters.Agreed settled round := by
  induction exchanges generalizing loop with
  | nil =>
    rw [rounds] at plays
    obtain ⟨-, plays⟩ := refuse_eq_ok.mp plays
    cases plays
    cases agreed
  | cons exchange rest ih =>
    rw [rounds] at plays
    split at plays
    · split at plays
      · cases plays
      · next ended played =>
        cases plays
        exact round_agreed parameters played agreed later
      next next played =>
      obtain ⟨⟨history, context, decision, body⟩, _, played⟩ := bind_eq_ok.mp played
      obtain ⟨trusted, _, played⟩ := bind_eq_ok.mp played
      obtain ⟨reply, _, played⟩ := bind_eq_ok.mp played
      exact ih plays (answer_goes_on parameters played)
    · cases plays
      cases agreed

theorem resumed_later {resume : ResumeState} (resumes : parameters.resumed resume = .ok loop) :
    loop.roundIdx ≠ 0 := by
  obtain ⟨terms, _, resumes⟩ := bind_eq_ok.mp resumes
  obtain ⟨_, _, resumes⟩ := bind_eq_ok.mp resumes
  obtain ⟨_, _, resumes⟩ := bind_eq_ok.mp resumes
  obtain ⟨last, _, resumes⟩ := bind_eq_ok.mp resumes
  obtain ⟨pinned, _, resumes⟩ := bind_eq_ok.mp resumes
  cases resumes
  have positive : max 1 resume.roundsCompleted ≠ 0 := by omega
  exact positive

theorem agreeOpening_agrees {negotiationId : Option String} {terms : AcceptedTerms}
    {agreedAmount : Option ℕ}
    (agrees : parameters.agreeOpening round negotiationId terms data agreedAmount trusted =
      .ok settled) :
    settled.last = some round ∧ settled.sent.getLast? = some round.body ∧
      settled.outcome.agreedAmount = agreedAmount := by
  obtain ⟨⟨agreement, encoded⟩, _, agrees⟩ := bind_eq_ok.mp agrees
  obtain ⟨_, _, agrees⟩ := bind_eq_ok.mp agrees
  simp only at agrees
  split at agrees
  · obtain ⟨_, _, agrees⟩ := bind_eq_ok.mp agrees
    cases agrees
    exact ⟨rfl, rfl, rfl⟩
  · obtain ⟨_, _, agrees⟩ := bind_eq_ok.mp agrees
    obtain ⟨_, _, agrees⟩ := bind_eq_ok.mp agrees
    cases agrees
    exact ⟨rfl, rfl, rfl⟩

theorem answerOpening_agreed {pinned : Proposal} {provisionTerms : Json}
    (answers : parameters.answerOpening round pinned initial provisionTerms trusted =
      .ok (.inl settled)) (agreed : settled.outcome.status = .agreed)
    (played : parameters.Played round) (opens : round.turn = 0)
    (opened : parameters.Initial initial) :
    parameters.Agreed settled round := by
  obtain ⟨terms, _, answers⟩ := bind_eq_ok.mp answers
  obtain ⟨data, _, answers⟩ := bind_eq_ok.mp answers
  obtain ⟨_, _, answers⟩ := bind_eq_ok.mp answers
  obtain ⟨named, reads, answers⟩ := bind_eq_ok.mp answers
  simp only at answers
  split at answers
  · obtain ⟨_, agrees, same⟩ := bind_eq_ok.mp answers
    cases same
    obtain ⟨last, sent, agreed⟩ := agreeOpening_agrees parameters agrees
    refine ⟨last, sent, played, named, reads, fun names => ?_, fun unnamed _ => ?_,
      fun _ later => absurd opens later⟩
    · rw [agreed, if_neg fun both => ?_]
      rw [Option.isNone_iff_eq_none] at both
      rw [both.1] at names
      cases names
    · subst unnamed
      refine ⟨initial, opened, agreed.trans ?_⟩
      simp only [Option.isNone_none, true_and]
  split at answers
  · cases answers
    cases agreed
  split at answers
  · cases answers
  split at answers <;> cases answers

theorem answerOpening_goes_on {pinned : Proposal} {provisionTerms : Json}
    (answers : parameters.answerOpening round pinned initial provisionTerms trusted =
      .ok (.inr loop)) : loop.roundIdx ≠ 0 := by
  obtain ⟨terms, _, answers⟩ := bind_eq_ok.mp answers
  obtain ⟨data, _, answers⟩ := bind_eq_ok.mp answers
  obtain ⟨_, _, answers⟩ := bind_eq_ok.mp answers
  obtain ⟨named, reads, answers⟩ := bind_eq_ok.mp answers
  simp only at answers
  split at answers
  · obtain ⟨_, _, same⟩ := bind_eq_ok.mp answers
    cases same
  split at answers
  · cases answers
  split at answers
  · cases answers
  obtain ⟨-, answers⟩ := refuse_eq_ok.mp answers
  cases answers
  exact Nat.one_ne_zero

theorem openingContext_reads {unitCount : Decimal} (units : parameters.units = some unitCount)
    (there : parameters.openingContext unitCount = .ok (context, initial)) :
    parameters.Initial initial ∧
      ∃ ceiling : ℕ, parameters.Ceiling ceiling ∧ context.ourReferenceAmount = ceiling := by
  obtain ⟨opened, read, there⟩ := bind_eq_ok.mp there
  obtain ⟨ceiling, bound, there⟩ := bind_eq_ok.mp there
  obtain ⟨base, _, there⟩ := bind_eq_ok.mp there
  cases there
  refine ⟨?_, ceiling, ?_, rfl⟩
  · rw [Initial, units]
    exact read
  · rw [Ceiling, units]
    exact bound

theorem fresh_agreed (plays : parameters.fresh exchanges = .ok settled)
    (agreed : settled.outcome.status = .agreed) :
    ∃ round, parameters.Agreed settled round := by
  obtain ⟨provisionTerms, _, plays⟩ := bind_eq_ok.mp plays
  obtain ⟨_, _, plays⟩ := bind_eq_ok.mp plays
  obtain ⟨unitCount, units, plays⟩ := bind_eq_ok.mp plays
  obtain ⟨⟨context, initial, decision⟩, moves, plays⟩ := bind_eq_ok.mp plays
  obtain ⟨⟨_, _⟩, reads, moves⟩ := bind_eq_ok.mp moves
  obtain ⟨_, decides, moves⟩ := bind_eq_ok.mp moves
  cases moves
  obtain ⟨opened, reference⟩ := openingContext_reads parameters
    (Option.mem_filter_iff.mp (orRaise_eq_ok units)).1 reads
  simp only at plays
  split at plays
  · cases plays
    cases agreed
  · cases plays
    cases agreed
  · next proposal action proposes =>
    cases exchanges with
    | nil => cases plays
    | cons exchange rest =>
      obtain ⟨pinned, wired, plays⟩ := bind_eq_ok.mp plays
      obtain ⟨trusted, _, plays⟩ := bind_eq_ok.mp plays
      obtain ⟨reply, _, plays⟩ := bind_eq_ok.mp plays
      obtain ⟨answer, answers, plays⟩ := bind_eq_ok.mp plays
      cases answer with
      | inl ended =>
        cases plays
        exact ⟨_, answerOpening_agreed parameters answers agreed
          ⟨decides, ⟨proposal, pinned, proposes, wired, rfl⟩, reference, fun _ => rfl⟩ rfl opened⟩
      | inr loop =>
        exact rounds_agreed parameters plays agreed (answerOpening_goes_on parameters answers)
  · cases plays

theorem negotiateWithSeller_agreed (plays : parameters.negotiateWithSeller exchanges = .ok settled)
    (agreed : settled.outcome.status = .agreed) : ∃ round, parameters.Agreed settled round := by
  unfold negotiateWithSeller at plays
  split at plays
  · cases plays
  split at plays
  · obtain ⟨loop, resumes, plays⟩ := bind_eq_ok.mp plays
    exact rounds_agreed parameters plays agreed (resumed_later parameters resumes)
  · obtain ⟨_, _, plays⟩ := bind_eq_ok.mp plays
    exact fresh_agreed parameters plays agreed

/-! ## The offer is kept -/

def KeepsOffer (settled : Settled) : Prop :=
  ∀ amount, settled.outcome.status = .agreed → settled.outcome.agreedAmount = some amount →
    (∃ body ∈ settled.sent.getLast?, amountOf body.proposal = .ok (some amount)) ∧
      ∀ ceiling, parameters.Ceiling ceiling → parameters.chain.decider.Within amount ceiling

/-- The decider made the round's proposal: every guard passed, the direction and the reference
amount that it saw were the buyer's, and the seller had named an amount. -/
def Answers (round : Round) : Prop :=
  ∃ seen, runMiddlewares round.history (parameters.chain.guards round.turn) round.context =
      .ok (none, seen) ∧
    seen.direction = .minimize ∧ seen.ourReferenceAmount = round.context.ourReferenceAmount ∧
    ∃ theirs, theirProposedAmount round.history = .ok (some theirs)

/-- The seller accepts an opening that selects an option and names no amount for it. -/
def Amountless (round : Round) : Prop :=
  round.turn = 0 ∧ parameters.settlementSelection.isSome = true ∧ round.named = .ok none

/-- The accepting reply names no other amount than the request; where it names none for an opening
without a selection, the request names what the buyer opens with; and a proposal that was not
the decider's own answer is within the ceiling. -/
structure Straight (round : Round) : Prop where
  named : ∀ amount, round.named = .ok (some amount) →
    amountOf round.body.proposal = .ok (some amount)
  unnamed : round.named = .ok none → round.turn = 0 → parameters.settlementSelection = none →
    ∀ initial, parameters.Initial initial → amountOf round.body.proposal = .ok (some initial)
  bounded : ¬ parameters.Answers round → ¬ parameters.Amountless round →
    ∀ amount ceiling, amountOf round.body.proposal = .ok (some amount) →
      parameters.Ceiling ceiling → parameters.chain.decider.Within amount ceiling

variable {parameters}

theorem Played.amount (played : parameters.Played round) :
    amountOf round.body.proposal = amountOf round.decision.proposal := by
  obtain ⟨proposal, wire, proposes, wired, sent⟩ := played.proposed
  rw [sent, proposes]
  exact amountOf_wireProposal wired

theorem Played.within (played : parameters.Played round) (answers : parameters.Answers round)
    {amount : ℕ} (sent : amountOf round.body.proposal = .ok (some amount))
    (bound : parameters.Ceiling ceiling) :
    parameters.chain.decider.Within amount ceiling := by
  obtain ⟨seen, passed, minimizes, same, theirs, named⟩ := answers
  obtain ⟨proposal, wire, proposes, _, _⟩ := played.proposed
  obtain ⟨other, ceil, reference⟩ := played.reference
  cases ceil.symm.trans bound
  have decides := decide_of_passed passed played.decided
  obtain ⟨decided, read, within⟩ :=
    Decider.within_of_decide decides named minimizes (same.trans reference) proposes
  rw [played.amount, proposes, read] at sent
  cases sent
  exact within

theorem Agreed.sent_of_straight {amount : ℕ} (agreed : parameters.Agreed settled round)
    (straight : parameters.Straight round) (value : settled.outcome.agreedAmount = some amount) :
    amountOf round.body.proposal = .ok (some amount) ∧ ¬ parameters.Amountless round := by
  obtain ⟨named, reads, names, opens, later⟩ := agreed.amount
  cases named with
  | some other =>
    cases value.symm.trans (names rfl)
    exact ⟨straight.named amount reads, fun amountless => nomatch reads.symm.trans amountless.2.2⟩
  | none =>
    by_cases opening : round.turn = 0
    · obtain ⟨initial, opened, fallback⟩ := opens rfl opening
      rw [value] at fallback
      split at fallback
      · next unselected =>
        cases fallback
        rw [Option.isNone_iff_eq_none] at unselected
        refine ⟨straight.unnamed reads opening unselected _ opened, fun amountless => ?_⟩
        have selected := amountless.2.1
        rw [unselected] at selected
        cases selected
      · cases fallback
    · have proposed := later rfl opening
      rw [value] at proposed
      exact ⟨agreed.played.amount.trans proposed, fun amountless => opening amountless.1⟩

theorem Agreed.straight_of_keeps (agreed : parameters.Agreed settled round)
    (status : settled.outcome.status = .agreed) (keeps : parameters.KeepsOffer settled) :
    parameters.Straight round := by
  have sent : ∀ {amount}, settled.outcome.agreedAmount = some amount →
      amountOf round.body.proposal = .ok (some amount) := by
    intro amount value
    obtain ⟨body, last, named⟩ := (keeps amount status value).1
    cases agreed.sent.symm.trans last
    exact named
  obtain ⟨named, reads, names, opens, later⟩ := agreed.amount
  refine ⟨fun amount naming => ?_, fun unnamed opening unselected initial opened => ?_,
    fun _ priced amount ceiling proposed bound => ?_⟩
  · cases reads.symm.trans naming
    exact sent (names rfl)
  · cases reads.symm.trans unnamed
    obtain ⟨other, read, fallback⟩ := opens rfl opening
    cases read.symm.trans opened
    rw [unselected] at fallback
    exact sent fallback
  · have value : ∃ agreedOn, settled.outcome.agreedAmount = some agreedOn := by
      cases named with
      | some other => exact ⟨other, names rfl⟩
      | none =>
        by_cases opening : round.turn = 0
        · obtain ⟨initial, _, fallback⟩ := opens rfl opening
          rcases selected : parameters.settlementSelection with _ | selection
          · rw [selected] at fallback
            exact ⟨initial, fallback⟩
          · exact absurd ⟨opening, selected ▸ rfl, reads⟩ priced
        · have same := agreed.played.amount.symm.trans proposed
          exact ⟨amount, (Except.ok.inj (same.symm.trans (later rfl opening))).symm⟩
    obtain ⟨agreedOn, value⟩ := value
    cases (sent value).symm.trans proposed
    exact (keeps amount status value).2 ceiling bound

/-- Whatever the seller replies, a negotiation keeps the buyer's offer exactly where the round it
is agreed in is straight. -/
theorem keepsOffer_iff (parameters : Parameters) (exchanges : List Exchange) (settled : Settled)
    (plays : parameters.negotiateWithSeller exchanges = .ok settled) :
    parameters.KeepsOffer settled ↔
      (settled.outcome.status = .agreed → ∀ round ∈ settled.last, parameters.Straight round) := by
  constructor
  · intro keeps status round last
    obtain ⟨other, agreed⟩ := negotiateWithSeller_agreed parameters plays status
    cases agreed.last.symm.trans last
    exact agreed.straight_of_keeps status keeps
  · intro straight amount status value
    obtain ⟨round, agreed⟩ := negotiateWithSeller_agreed parameters plays status
    have straight := straight status round agreed.last
    obtain ⟨sent, priced⟩ := agreed.sent_of_straight straight value
    refine ⟨⟨round.body, agreed.sent, sent⟩, fun ceiling bound => ?_⟩
    by_cases answers : parameters.Answers round
    · exact agreed.played.within answers sent bound
    · exact straight.bounded answers priced amount ceiling sent bound

end Parameters

/-! ## An opening that is accepted at another amount -/

namespace Inflated

def buyer : Identity := ⟨"ed25519", "buyer"⟩

def seller : Identity := ⟨"ed25519", "seller"⟩

def agreement (amount : ℕ) : Agreement :=
  ⟨"negotiation", "listing", buyer.dump, seller.dump, none, amount, none, .null⟩

def schemas (amount : ℕ) : Schemas where
  loads _ := none
  identity
    | .obj [("scheme", .str scheme), ("identifier", .str identifier)] => some ⟨scheme, identifier⟩
    | _ => none
  selection _ := none
  plan _ := none
  agreement _ := some (agreement amount)
  retained _ := some (agreement amount)

/-- A buyer that opens at its ceiling of 100 with `listed_price`. -/
def parameters (amount : ℕ) : Parameters where
  schemas := schemas amount
  decoders := ⟨none, none⟩
  principal := buyer
  signerIdentity := buyer
  listingId := "listing"
  initialPrice := ⟨100, 0⟩
  maxPrice := ⟨100, 0⟩
  unitCount := some ⟨1, 0⟩
  provisionTerms := some (.obj [])
  escrowProposal := some (.obj [])
  encodeEscrowProposal := some fun _ => .ok [("fields", .obj [("amount", .int 100)])]
  settlementSelection := none
  maxRounds := 10
  chain := ⟨fun _ => [], .listedPrice⟩
  resume := none
  policyParams := []
  advertisedOption := none
  validateAdvertisedPlan := none

def reply (amount : ℕ) : Reply :=
  [("action", .str "accept"), ("negotiation_id", .str "negotiation"),
    ("proposal", .obj [("fields", .obj [("amount", .int amount)])]),
    ("accepted_provision_terms", .obj []), ("agreement", .obj []), ("agreement_bytes", .str ""),
    ("buyer_principal", buyer.dump), ("seller_principal", seller.dump)]

def exchange (amount : ℕ) : Exchange := ⟨.ok [seller], .ok (reply amount)⟩

end Inflated

open Inflated in
/-- The buyer offers 100, its ceiling, and agrees to 1000. -/
theorem accepts_other_amount :
    ∃ settled, (parameters 1000).negotiateWithSeller [exchange 1000] = .ok settled ∧
      settled.outcome.status = .agreed ∧ settled.outcome.agreedAmount = some 1000 ∧
      (∃ body, settled.sent = [body] ∧ amountOf body.proposal = .ok (some 100)) ∧
      ¬ (parameters 1000).KeepsOffer settled := by
  refine ⟨_, rfl, rfl, rfl, ⟨_, rfl, rfl⟩, fun keeps => ?_⟩
  have within : 1000 ≤ 100 := (keeps 1000 rfl rfl).2 100 rfl
  omega

open Inflated in
/-- The buyer offers 100, and the seller accepts that. -/
theorem keepsOffer_iff_accepted :
    ∃ settled, settled.outcome.agreedAmount = some 100 ∧
      ((parameters 100).KeepsOffer settled ↔ (settled.outcome.status = .agreed →
        ∀ round ∈ settled.last, (parameters 100).Straight round)) := by
  refine ⟨_, ?_, Parameters.keepsOffer_iff (parameters 100) [exchange 100] _ rfl⟩
  rfl

end ComputeMarket.Buyer
