import ComputeMarket.Middleware.Gate

/-!
# Where the charges of a gate are

The charges that wait for a flush, weighed by any weight of their own (`waits`): the indicator
of a request, of an idempotency key, or a plain count. Each critical section has one equation,
what it adds to what waits and what it takes out.
-/

namespace ComputeMarket.Middleware

variable (w : ConsumeItem → ℕ)

variable {states : KeyStates}

def weigh (items : List ConsumeItem) : ℕ := (items.map w).sum

def waits (states : KeyStates) : ℕ := states.sum fun row => weigh w row.2.pending

def keyWaits (state : Option KeyState) : ℕ := (state.map fun state => weigh w state.pending).getD 0

@[simp] theorem weigh_nil : weigh w [] = 0 := rfl

@[simp] theorem weigh_cons (item : ConsumeItem) (items : List ConsumeItem) :
    weigh w (item :: items) = w item + weigh w items := by
  rw [weigh, List.map_cons, List.sum_cons, weigh]

@[simp] theorem weigh_append (first second : List ConsumeItem) :
    weigh w (first ++ second) = weigh w first + weigh w second := by
  rw [weigh, List.map_append, List.sum_append, weigh, weigh]

theorem mem_of_weigh {items : List ConsumeItem} (weighs : weigh w items ≠ 0) :
    ∃ item ∈ items, w item ≠ 0 := by
  by_contra none
  refine weighs (List.sum_eq_zero fun weight listed => ?_)
  obtain ⟨item, member, isWeight⟩ := List.mem_map.mp listed
  by_contra nonzero
  exact none ⟨item, member, fun zero => nonzero (isWeight.symm.trans zero)⟩

theorem le_weigh {items : List ConsumeItem} {item : ConsumeItem} (member : item ∈ items) :
    w item ≤ weigh w items :=
  List.single_le_sum (fun _ _ => Nat.zero_le _) _ (List.mem_map_of_mem member)

theorem mem_of_waits (waiting : waits w states ≠ 0) :
    ∃ row ∈ states, ∃ item ∈ row.2.pending, w item ≠ 0 := by
  by_contra none
  refine waiting (List.sum_eq_zero fun weight listed => ?_)
  obtain ⟨row, member, isWeight⟩ := List.mem_map.mp listed
  by_contra nonzero
  obtain ⟨item, isItem, weighs⟩ := mem_of_weigh w fun zero => nonzero (isWeight.symm.trans zero)
  exact none ⟨row, member, item, isItem, weighs⟩

theorem pending_nil_of_waits (idle : waits (fun _ => 1) states = 0) :
    ∀ row ∈ states, row.2.pending = [] := by
  intro row member
  have listed := List.mem_map_of_mem (f := fun row : String × KeyState =>
    weigh (fun _ => 1) row.2.pending) (Table.mem_rows.mpr member)
  have small := List.single_le_sum (fun _ _ => Nat.zero_le _) _ listed
  have zero : weigh (fun _ => 1) row.2.pending = 0 := Nat.le_zero.mp (small.trans idle.le)
  cases pending : row.2.pending with
  | nil => rfl
  | cons item rest =>
    rw [pending, weigh_cons] at zero
    omega

/-! ## Sections that move no charge, or one -/

variable {config : GateConfig}

theorem waits_set (states : KeyStates) (keyId : String) (state : KeyState) :
    waits w (states.set keyId state) + keyWaits w (states.get? keyId) =
      waits w states + weigh w state.pending := by
  have moved := Dict.sum_set states keyId state fun row => weigh w row.2.pending
  cases found : states.get? keyId with
  | none =>
    rw [found] at moved
    exact moved
  | some old =>
    rw [found] at moved
    exact moved

theorem waits_set_kept {keyId : String} {state : KeyState}
    (kept : weigh w state.pending = keyWaits w (states.get? keyId)) :
    waits w (states.set keyId state) = waits w states := by
  have moved := waits_set w states keyId state
  omega

theorem waits_recordVerified (states : KeyStates) (keyId : String) (verify : VerifyResult)
    (expires : ℚ) : waits w (recordVerified states keyId verify expires) = waits w states := by
  refine waits_set_kept w ?_
  cases states.get? keyId with
  | none => rfl
  | some state => rfl

theorem waits_recordConsumed (states : KeyStates) (keyId : String) (result : ConsumeResult) :
    waits w (recordConsumed states keyId result) = waits w states := by
  unfold recordConsumed
  split
  · rfl
  next state found =>
  refine waits_set_kept w ?_
  rw [found]
  rfl

theorem waits_recordExhausted (states : KeyStates) (keyId : String) :
    waits w (recordExhausted states keyId) = waits w states := by
  unfold recordExhausted
  split
  · rfl
  next state found =>
  refine waits_set_kept w ?_
  rw [found]
  rfl

theorem waits_beginCharge {batched : KeyStates} {item : ConsumeItem}
    (began : beginCharge config states item = some (.batched batched)) :
    waits w batched = waits w states + w item := by
  unfold beginCharge at began
  obtain ⟨state, found, began⟩ := Option.map_eq_some_iff.mp began
  split at began
  · cases began
  · simp only at began
    split at began
    · cases began
    · cases began
      have moved := waits_set w states item.keyId
        { state with
          pending := state.pending ++ [item]
          estimatedBalance := state.estimatedBalance - item.amount }
      rw [found, weigh_append, weigh_cons, weigh_nil] at moved
      have own : keyWaits w (some state) = weigh w state.pending := rfl
      omega

/-! ## A flush -/

variable {maxBatch : ℕ}

theorem takePending_cons (maxBatch : ℕ) (row : String × KeyState) (rest : List (String × KeyState))
    (taken : List (String × ConsumeItem)) :
    takePending maxBatch (row :: rest) taken =
      let taken := taken ++ row.2.pending.map fun item => (row.1, item)
      let cleared := (row.1, { row.2 with pending := [] })
      if maxBatch ≤ taken.length then (taken, cleared :: rest)
      else ((takePending maxBatch rest taken).1, cleared :: (takePending maxBatch rest taken).2) :=
  rfl

theorem weigh_takePending (maxBatch : ℕ) (rows : List (String × KeyState))
    (taken : List (String × ConsumeItem)) :
    weigh w ((takePending maxBatch rows taken).1.map Prod.snd) +
        ((takePending maxBatch rows taken).2.map fun row => weigh w row.2.pending).sum =
      weigh w (taken.map Prod.snd) + (rows.map fun row => weigh w row.2.pending).sum := by
  induction rows generalizing taken with
  | nil => rfl
  | cons row rest ih =>
    have own : (row.2.pending.map fun item => (row.1, item)).map Prod.snd = row.2.pending := by
      rw [List.map_map]
      exact List.map_id _
    rw [takePending_cons]
    simp only
    split
    · simp only [List.map_append, own, weigh_append, List.map_cons, List.sum_cons, weigh_nil]
      omega
    · have later := ih (taken ++ row.2.pending.map fun item => (row.1, item))
      rw [List.map_append, own, weigh_append] at later
      simp only [List.map_cons, List.sum_cons, weigh_nil]
      omega

theorem waits_drained (maxBatch : ℕ) (states : KeyStates) :
    weigh w ((batch maxBatch states).map Prod.snd) + waits w (drained maxBatch states) =
      waits w states := by
  have taken := weigh_takePending w maxBatch states.rows []
  rw [List.map_nil, weigh_nil, zero_add] at taken
  exact taken

theorem owners_takePending {rows : List (String × KeyState)} {taken : List (String × ConsumeItem)}
    {pair : String × ConsumeItem} (member : pair ∈ (takePending maxBatch rows taken).1) :
    pair ∈ taken ∨ ∃ row ∈ rows, pair.1 = row.1 ∧ pair.2 ∈ row.2.pending := by
  induction rows generalizing taken with
  | nil => exact .inl member
  | cons row rest ih =>
    have split_taken : pair ∈ taken ++ row.2.pending.map (fun item => (row.1, item)) →
        pair ∈ taken ∨ ∃ row' ∈ row :: rest, pair.1 = row'.1 ∧ pair.2 ∈ row'.2.pending := by
      intro among
      rcases List.mem_append.mp among with old | own
      · exact .inl old
      · obtain ⟨item, isItem, rfl⟩ := List.mem_map.mp own
        exact .inr ⟨row, List.mem_cons_self, rfl, isItem⟩
    rw [takePending_cons] at member
    simp only at member
    split at member
    · exact split_taken member
    · rcases ih member with among | ⟨other, isOther, owner, waiting⟩
      · exact split_taken among
      · exact .inr ⟨other, List.mem_cons_of_mem _ isOther, owner, waiting⟩

theorem owner_of_batch {pair : String × ConsumeItem} (member : pair ∈ batch maxBatch states) :
    ((drained maxBatch states).get? pair.1).isSome = true := by
  rcases owners_takePending member with never | ⟨row, isRow, owner, -⟩
  · cases never
  · have listed : pair.1 ∈ (drained maxBatch states).keys := by
      change pair.1 ∈ (takePending maxBatch states.rows []).2.map Prod.fst
      rw [takePending_keys, owner]
      exact List.mem_map_of_mem isRow
    cases found : (drained maxBatch states).get? pair.1 with
    | none => exact absurd listed (Dict.get?_eq_none.mp found)
    | some state => rfl

/-- The charges that a batch's results put back, under fresh keys. -/
def requeued (config : GateConfig) :
    List (String × ConsumeItem) → List (ConsumeResult × String) → List ConsumeItem
  | (owner, item) :: items, (result, fresh) :: results =>
    if !result.ok && result.reason.isText "batch_unavailable" then
      ⟨owner, config.amountPerRequest, fresh, item.request⟩ :: requeued config items results
    else
      requeued config items results
  | _, _ => []

theorem pending_settled (config : GateConfig) (owner fresh : String) (request : ℕ)
    (result : ConsumeResult) (state : KeyState) :
    (state.settled config owner fresh request result).pending =
      if !result.ok && result.reason.isText "batch_unavailable" then
        state.pending ++ [⟨owner, config.amountPerRequest, fresh, request⟩]
      else state.pending := by
  unfold KeyState.settled
  cases result.ok with
  | true => rfl
  | false =>
    cases result.reason.isText "batch_unavailable" with
    | true => rfl
    | false => rfl

theorem waits_settle {items : List (String × ConsumeItem)} {results : List (ConsumeResult × String)}
    (owned : ∀ pair ∈ items, (states.get? pair.1).isSome = true) :
    waits w (settle config states items results) =
      waits w states + weigh w (requeued config items results) := by
  induction items generalizing states results with
  | nil => rfl
  | cons pair items ih =>
    obtain ⟨owner, item⟩ := pair
    cases results with
    | nil => rfl
    | cons answer results =>
      obtain ⟨result, fresh⟩ := answer
      obtain ⟨state, found⟩ := Option.isSome_iff_exists.mp (owned _ List.mem_cons_self)
      have moved := waits_set w states owner
        (state.settled config owner fresh item.request result)
      rw [show states.get? owner = some state from found, pending_settled] at moved
      have own : keyWaits w (some state) = weigh w state.pending := rfl
      have later := @ih (states.set owner (state.settled config owner fresh item.request result))
        results fun other isOther => by
          rw [Dict.get?_set]
          split
          · rfl
          · exact owned other (List.mem_cons_of_mem _ isOther)
      rw [settle, requeued]
      simp only [show states.get? owner = some state from found]
      rw [later]
      split at moved
      · next back =>
        rw [if_pos back, weigh_cons]
        rw [weigh_append, weigh_cons, weigh_nil] at moved
        omega
      next done =>
      rw [if_neg done]
      omega

theorem settle_keeps {items : List (String × ConsumeItem)} {results : List (ConsumeResult × String)}
    {keyId : String} (stored : (states.get? keyId).isSome = true) :
    ((settle config states items results).get? keyId).isSome = true := by
  induction items generalizing states results with
  | nil => exact stored
  | cons pair items ih =>
    cases results with
    | nil => exact stored
    | cons answer results =>
      refine ih ?_
      split
      · exact stored
      · rw [Dict.get?_set]
        split
        · rfl
        · exact stored

/-! ## A flush that takes everything -/

/-- A batch is not cut before a key that has charges: those of the keys before it are fewer than
a batch takes. -/
def Fits (maxBatch : ℕ) (rows : List (String × KeyState)) : Prop :=
  ∀ place : Fin rows.length, 0 < place.val → rows[place].2.pending ≠ [] →
    ((rows.take place).map fun row => row.2.pending.length).sum < maxBatch

instance (maxBatch : ℕ) (rows : List (String × KeyState)) : Decidable (Fits maxBatch rows) :=
  inferInstanceAs (Decidable (∀ place : Fin rows.length, 0 < place.val →
    rows[place].2.pending ≠ [] →
      ((rows.take place).map fun row => row.2.pending.length).sum < maxBatch))

theorem takePending_fits {rows : List (String × KeyState)} {taken : List (String × ConsumeItem)}
    (fits : ∀ before row later, rows = before ++ row :: later → before ≠ [] →
      row.2.pending ≠ [] →
        taken.length + (before.map fun row => row.2.pending.length).sum < maxBatch) :
    ((takePending maxBatch rows taken).2.map fun row =>
      weigh (fun _ => 1) row.2.pending).sum = 0 := by
  induction rows generalizing taken with
  | nil => rfl
  | cons first rest ih =>
    rw [takePending_cons]
    simp only
    split
    · next full =>
      -- the batch is cut here, so that no key behind has charges
      rw [List.length_append, List.length_map] at full
      rw [List.map_cons, List.sum_cons, weigh_nil, zero_add]
      refine List.sum_eq_zero fun weight listed => ?_
      obtain ⟨row, member, rfl⟩ := List.mem_map.mp listed
      obtain ⟨before, later, split⟩ := List.append_of_mem member
      by_contra weighs
      have waiting : row.2.pending ≠ [] := by
        intro none
        rw [none] at weighs
        exact weighs rfl
      have room := fits (first :: before) row later (by rw [split]; rfl)
        (List.cons_ne_nil _ _) waiting
      rw [List.map_cons, List.sum_cons] at room
      omega
    · rw [List.map_cons, List.sum_cons, weigh_nil, zero_add]
      refine ih fun before row later split _ waiting => ?_
      have room := fits (first :: before) row later (by rw [split]; rfl)
        (List.cons_ne_nil _ _) waiting
      rw [List.map_cons, List.sum_cons] at room
      rw [List.length_append, List.length_map]
      omega

theorem waits_drained_fits (fits : Fits maxBatch states.rows) :
    waits (fun _ => 1) (drained maxBatch states) = 0 := by
  refine takePending_fits fun before row later isSplit started waiting => ?_
  have short : before.length < states.rows.length := by
    rw [isSplit, List.length_append, List.length_cons]
    omega
  have here : states.rows[before.length] = row := by
    simp only [isSplit, List.getElem_append_right (Nat.le_refl _), Nat.sub_self,
      List.getElem_cons_zero]
  have room := fits ⟨before.length, short⟩ (List.length_pos_of_ne_nil started)
    (by rwa [Fin.getElem_fin, here])
  simp only [isSplit, List.take_left' rfl] at room
  rw [List.length_nil, zero_add]
  exact room

end ComputeMarket.Middleware
