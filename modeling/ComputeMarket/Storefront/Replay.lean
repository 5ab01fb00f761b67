import ComputeMarket.Library.Run
import ComputeMarket.Library.Table

/-!
# One attempt and one outcome for a signed request

`claim_replay` and `record_replay_outcome` of `sqlite_client.py`, each one transaction on the
reservation of a principal's request id, and what `authenticate_request` of `auth.py` does
with them: it looks the reservation up, refuses an id reused with other content, and claims.
The look-up and the claim are two events, so whatever happens between them is part of a run.

A row keeps the token of its last dispatch and, once recorded, its outcome
(`Recorded.step`); a dispatch takes over only a lease that has run out (`Held.step`). With
these `replay_kept` says what a run of any requests, takers-over and late recorders leaves.
-/

namespace ComputeMarket.Storefront

variable {π β : Type*} [DecidableEq π]

structure ReplayReservation (π : Type*) where
  principal : π
  requestId : String
  requestHash : String

def ReplayReservation.identity (reservation : ReplayReservation π) : π × String :=
  (reservation.principal, reservation.requestId)

/-- A row of `auth_replay_reservations`. -/
structure ReplayRow where
  requestHash : String
  responseStatus : Option ℤ
  responseBody : Option String
  attemptToken : Option String
  leaseUntil : Option ℤ

abbrev ReplayStore (π : Type*) := Dict (π × String) ReplayRow

/-- `json.dumps` and `json.loads`, of the bodies that have a JSON text. -/
structure BodyText (β : Type*) where
  dumps : β → String
  loads : String → β
  loads_dumps : ∀ body, loads (dumps body) = body

/-- `ReplayClaim`, its state with what comes with it. -/
inductive ReplayClaim (β : Type*)
  | dispatch (attemptToken : String)
  | pending
  | completed (status : ℤ) (body : β)
  | changed

inductive ReplayError
  | claimChanged
  | attemptSuperseded

/-- `claim_replay`, with the token it draws. -/
def claimReplay (text : BodyText β) (store : ReplayStore π) (reservation : ReplayReservation π)
    (attemptToken : String) (now leaseSeconds : ℤ) :
    Except ReplayError (ReplayClaim β × ReplayStore π) :=
  match store.get? reservation.identity with
  | none =>
    .ok (.dispatch attemptToken, store.set reservation.identity
      ⟨reservation.requestHash, none, none, some attemptToken, some (now + leaseSeconds)⟩)
  | some row =>
    if row.requestHash ≠ reservation.requestHash then .ok (.changed, store)
    else
      match row.responseStatus, row.responseBody with
      | some status, some body => .ok (.completed status (text.loads body), store)
      | recordedStatus, recordedBody =>
        if now < row.leaseUntil.getD 0 then .ok (.pending, store)
        else if recordedStatus = none ∧ recordedBody = none
            ∧ ∀ lease ∈ row.leaseUntil, lease ≤ now then
          .ok (.dispatch attemptToken, store.set reservation.identity
            { row with
              attemptToken := some attemptToken
              leaseUntil := some (now + leaseSeconds) })
        else .error .claimChanged

def recordReplayOutcome (text : BodyText β) (store : ReplayStore π)
    (reservation : ReplayReservation π) (status : ℤ) (body : β) (attemptToken : String) :
    Except ReplayError (ReplayStore π) :=
  match store.get? reservation.identity with
  | none => .error .attemptSuperseded
  | some row =>
    if row.requestHash = reservation.requestHash ∧ row.attemptToken = some attemptToken
        ∧ row.responseStatus = none ∧ row.responseBody = none then
      .ok (store.set reservation.identity
        { row with
          responseStatus := some status
          responseBody := some (text.dumps body)
          leaseUntil := none })
    else .error .attemptSuperseded

/-- `get_replay_reservation`, of which `authenticate_request` compares the hash. -/
def getReplayReservation (store : ReplayStore π) (reservation : ReplayReservation π) :
    Option String :=
  (store.get? reservation.identity).map ReplayRow.requestHash

/-! ## Requests and recorders together -/

inductive ReplayEvent (π β : Type*)
  /-- `authenticate_request` looks the reservation up. -/
  | look (reservation : ReplayReservation π)
  /-- `authenticate_request` claims, with the clock it read and the token it draws. -/
  | claim (reservation : ReplayReservation π) (attemptToken : String) (now leaseSeconds : ℤ)
  | record (reservation : ReplayReservation π) (status : ℤ) (body : β) (attemptToken : String)

inductive ReplayAnswer (β : Type*)
  | proceed
  /-- The id was reused with changed content: a 409. -/
  | reused
  /-- An authenticated principal whose claim allows no dispatch. -/
  | retry (claim : ReplayClaim β)
  | dispatch (attemptToken : String)
  | recorded
  | raised

def ReplayEvent.answer (text : BodyText β) (store : ReplayStore π) :
    ReplayEvent π β → ReplayAnswer β
  | .look reservation =>
    match getReplayReservation store reservation with
    | some requestHash => if requestHash ≠ reservation.requestHash then .reused else .proceed
    | none => .proceed
  | .claim reservation attemptToken now leaseSeconds =>
    if leaseSeconds ≤ 0 then .raised
    else
      match claimReplay text store reservation attemptToken now leaseSeconds with
      | .ok (.dispatch token, _) => .dispatch token
      | .ok (.changed, _) => .reused
      | .ok (other, _) => .retry other
      | .error _ => .raised
  | .record reservation status body attemptToken =>
    match recordReplayOutcome text store reservation status body attemptToken with
    | .ok _ => .recorded
    | .error _ => .raised

def ReplayEvent.leaves (text : BodyText β) (store : ReplayStore π) :
    ReplayEvent π β → ReplayStore π
  | .look _ => store
  | .claim reservation attemptToken now leaseSeconds =>
    if leaseSeconds ≤ 0 then store
    else
      match claimReplay text store reservation attemptToken now leaseSeconds with
      | .ok (_, after) => after
      | .error _ => store
  | .record reservation status body attemptToken =>
    (recordReplayOutcome text store reservation status body attemptToken).toOption.getD store

def ReplayEvent.Dispatches (text : BodyText β) (store : ReplayStore π) (identity : π × String)
    (attemptToken : String) (leaseStart leaseEnd : ℤ) : ReplayEvent π β → Prop
  | .claim reservation token now leaseSeconds =>
    reservation.identity = identity ∧ leaseStart = now ∧ leaseEnd = now + leaseSeconds ∧
      (ReplayEvent.claim reservation token now leaseSeconds).answer text store
        = .dispatch attemptToken
  | _ => False

namespace ReplayStore

def MayRecord (text : BodyText β) (store : ReplayStore π) (identity : π × String)
    (attemptToken : String) : Prop :=
  ∃ (reservation : ReplayReservation π) (status : ℤ) (body : β) (after : ReplayStore π),
    reservation.identity = identity ∧
      recordReplayOutcome text store reservation status body attemptToken = .ok after

def Recorded (store : ReplayStore π) (identity : π × String) (requestHash : String) (status : ℤ)
    (body : String) : Prop :=
  ∃ row, store.get? identity = some row ∧ row.requestHash = requestHash ∧
    row.responseStatus = some status ∧ row.responseBody = some body

def Held (store : ReplayStore π) (identity : π × String) (time : ℤ) : Prop :=
  ∃ row, store.get? identity = some row ∧
    (row.responseStatus ≠ none ∨ ∃ lease, row.leaseUntil = some lease ∧ time ≤ lease)

def LastToken (store : ReplayStore π) (identity : π × String) (attemptToken : String) : Prop :=
  ∃ row, store.get? identity = some row ∧ row.attemptToken = some attemptToken

end ReplayStore

/-! ## What the transactions leave -/

variable {text : BodyText β} {store : ReplayStore π} {status : ℤ}

theorem claimReplay_cases (text : BodyText β) (store : ReplayStore π)
    (reservation : ReplayReservation π) (attemptToken : String) (now leaseSeconds : ℤ) :
    (store.get? reservation.identity = none ∧
      claimReplay text store reservation attemptToken now leaseSeconds
        = .ok (.dispatch attemptToken, store.set reservation.identity
            ⟨reservation.requestHash, none, none, some attemptToken, some (now + leaseSeconds)⟩)) ∨
    ∃ row, store.get? reservation.identity = some row ∧
      ((row.requestHash ≠ reservation.requestHash ∧
          claimReplay text store reservation attemptToken now leaseSeconds = .ok (.changed, store)) ∨
        row.requestHash = reservation.requestHash ∧
        ((∃ status body, row.responseStatus = some status ∧ row.responseBody = some body ∧
            claimReplay text store reservation attemptToken now leaseSeconds
              = .ok (.completed status (text.loads body), store)) ∨
          (claimReplay text store reservation attemptToken now leaseSeconds = .ok (.pending, store)) ∨
          (claimReplay text store reservation attemptToken now leaseSeconds = .error .claimChanged) ∨
          (row.responseStatus = none ∧ row.responseBody = none ∧
            (∀ lease ∈ row.leaseUntil, lease ≤ now) ∧
            claimReplay text store reservation attemptToken now leaseSeconds
              = .ok (.dispatch attemptToken, store.set reservation.identity
                  { row with
                    attemptToken := some attemptToken
                    leaseUntil := some (now + leaseSeconds) })))) := by
  cases stored : store.get? reservation.identity with
  | none => exact .inl ⟨rfl, by simp only [claimReplay, stored]⟩
  | some row =>
    refine .inr ⟨row, rfl, ?_⟩
    by_cases hash : row.requestHash = reservation.requestHash
    · refine .inr ⟨hash, ?_⟩
      simp only [claimReplay, stored, hash, ne_eq, not_true_eq_false, if_false]
      split
      · next status body isStatus isBody => exact .inl ⟨status, body, isStatus, isBody, rfl⟩
      · split
        · exact .inr (.inl rfl)
        · split
          · next open' => exact .inr (.inr (.inr ⟨open'.1, open'.2.1, open'.2.2, rfl⟩))
          · exact .inr (.inr (.inl rfl))
    · exact .inl ⟨hash, by simp only [claimReplay, stored, ne_eq, hash, not_false_eq_true, if_true]⟩

theorem recordReplayOutcome_ok {reservation : ReplayReservation π} {body : β}
    {attemptToken : String} {after : ReplayStore π}
    (done : recordReplayOutcome text store reservation status body attemptToken = .ok after) :
    ∃ row, store.get? reservation.identity = some row ∧
      row.requestHash = reservation.requestHash ∧ row.attemptToken = some attemptToken ∧
      row.responseStatus = none ∧ row.responseBody = none ∧
      after = store.set reservation.identity
        { row with
          responseStatus := some status
          responseBody := some (text.dumps body)
          leaseUntil := none } := by
  unfold recordReplayOutcome at done
  split at done
  · cases done
  next row stored =>
  obtain ⟨allowed, done⟩ := require_eq_ok.mp done
  cases done
  exact ⟨row, stored, allowed.1, allowed.2.1, allowed.2.2.1, allowed.2.2.2, rfl⟩

inductive ReplayStep (text : BodyText β) (store : ReplayStore π) :
    ReplayEvent π β → ReplayAnswer β → ReplayStore π → Prop
  /-- Nothing changes, and nothing is dispatched. -/
  | quiet {event : ReplayEvent π β} {answer : ReplayAnswer β}
      (quiet : ∀ token, answer ≠ .dispatch token) (unrecorded : answer ≠ .recorded) :
      ReplayStep text store event answer store
  | opened {reservation : ReplayReservation π} {token : String} {now leaseSeconds : ℤ}
      (lease : 0 < leaseSeconds) (fresh : store.get? reservation.identity = none) :
      ReplayStep text store (.claim reservation token now leaseSeconds) (.dispatch token)
        (store.set reservation.identity
          ⟨reservation.requestHash, none, none, some token, some (now + leaseSeconds)⟩)
  | tookOver {reservation : ReplayReservation π} {token : String} {now leaseSeconds : ℤ}
      {row : ReplayRow} (lease : 0 < leaseSeconds)
      (stored : store.get? reservation.identity = some row)
      (hash : row.requestHash = reservation.requestHash)
      (status : row.responseStatus = none) (body : row.responseBody = none)
      (runOut : ∀ lease ∈ row.leaseUntil, lease ≤ now) :
      ReplayStep text store (.claim reservation token now leaseSeconds) (.dispatch token)
        (store.set reservation.identity
          { row with attemptToken := some token, leaseUntil := some (now + leaseSeconds) })
  | recorded {reservation : ReplayReservation π} {status : ℤ} {body : β} {token : String}
      {row : ReplayRow} (stored : store.get? reservation.identity = some row)
      (hash : row.requestHash = reservation.requestHash) (held : row.attemptToken = some token)
      (noStatus : row.responseStatus = none) (noBody : row.responseBody = none) :
      ReplayStep text store (.record reservation status body token) .recorded
        (store.set reservation.identity
          { row with
            responseStatus := some status
            responseBody := some (text.dumps body)
            leaseUntil := none })

theorem replayStep (text : BodyText β) (store : ReplayStore π) (event : ReplayEvent π β) :
    ReplayStep text store event (event.answer text store) (event.leaves text store) := by
  cases event with
  | look reservation =>
    refine .quiet (fun token => ?_) ?_
    · simp only [ReplayEvent.answer]
      split
      · split <;> nofun
      · nofun
    · simp only [ReplayEvent.answer]
      split
      · split <;> nofun
      · nofun
  | claim reservation token now leaseSeconds =>
    by_cases refused : leaseSeconds ≤ 0
    · simp only [ReplayEvent.answer, ReplayEvent.leaves, refused, if_true]
      exact .quiet nofun nofun
    · simp only [ReplayEvent.answer, ReplayEvent.leaves, refused, if_false]
      have lease := not_le.mp refused
      rcases claimReplay_cases text store reservation token now leaseSeconds with
        ⟨fresh, claimed⟩ | ⟨row, stored, ⟨-, claimed⟩ | ⟨hash, ⟨status, body, -, -, claimed⟩ |
          claimed | claimed | ⟨status, body, runOut, claimed⟩⟩⟩
      · rw [claimed]
        exact .opened lease fresh
      · rw [claimed]
        exact .quiet nofun nofun
      · rw [claimed]
        exact .quiet nofun nofun
      · rw [claimed]
        exact .quiet nofun nofun
      · rw [claimed]
        exact .quiet nofun nofun
      · rw [claimed]
        exact .tookOver lease stored hash status body runOut
  | record reservation status body token =>
    simp only [ReplayEvent.answer, ReplayEvent.leaves]
    cases done : recordReplayOutcome text store reservation status body token with
    | error _ => exact .quiet nofun nofun
    | ok after =>
      obtain ⟨row, stored, hash, held, noStatus, noBody, rfl⟩ := recordReplayOutcome_ok done
      exact .recorded stored hash held noStatus noBody

namespace ReplayStore

/-! ## One event -/

variable {identity : π × String} {token : String} {event : ReplayEvent π β}

theorem Recorded.step {requestHash body : String}
    (recorded : store.Recorded identity requestHash status body) (event : ReplayEvent π β) :
    Recorded (event.leaves text store) identity requestHash status body := by
  obtain ⟨row, stored, hash, isStatus, isBody⟩ := recorded
  have keeps : ∀ {other : π × String} {written : ReplayRow}, other ≠ identity →
      Recorded (store.set other written) identity requestHash status body := by
    intro other written differs
    refine ⟨row, ?_, hash, isStatus, isBody⟩
    rw [Dict.get?_set, if_neg (Ne.symm differs)]
    exact stored
  have step := replayStep text store event
  generalize event.answer text store = answer at step
  generalize event.leaves text store = after at step ⊢
  cases step with
  | quiet => exact ⟨row, stored, hash, isStatus, isBody⟩
  | opened lease fresh =>
    refine keeps ?_
    rintro rfl
    rw [stored] at fresh
    cases fresh
  | tookOver lease stored' _ noStatus =>
    refine keeps ?_
    rintro rfl
    rw [stored] at stored'
    cases stored'
    rw [isStatus] at noStatus
    cases noStatus
  | recorded stored' _ _ noStatus =>
    refine keeps ?_
    rintro rfl
    rw [stored] at stored'
    cases stored'
    rw [isStatus] at noStatus
    cases noStatus

theorem Held.step {time : ℤ} (held : store.Held identity time) (event : ReplayEvent π β) :
    Held (event.leaves text store) identity time := by
  obtain ⟨row, stored, until'⟩ := held
  have keeps : ∀ {other : π × String} {written : ReplayRow},
      (other = identity → written.responseStatus ≠ none ∨
        ∃ lease, written.leaseUntil = some lease ∧ time ≤ lease) →
      Held (store.set other written) identity time := by
    intro other written same
    by_cases here : identity = other
    · exact ⟨written, by rw [Dict.get?_set, if_pos here], same here.symm⟩
    · exact ⟨row, by rw [Dict.get?_set, if_neg here]; exact stored, until'⟩
  have step := replayStep text store event
  generalize event.answer text store = answer at step
  generalize event.leaves text store = after at step ⊢
  cases step with
  | quiet => exact ⟨row, stored, until'⟩
  | opened lease fresh =>
    refine keeps ?_
    rintro rfl
    rw [stored] at fresh
    cases fresh
  | tookOver lease stored' _ noStatus _ runOut =>
    refine keeps ?_
    rintro rfl
    rw [stored] at stored'
    cases stored'
    rcases until' with recorded | ⟨last, isLast, later⟩
    · exact absurd noStatus recorded
    · have ended := runOut last isLast
      exact .inr ⟨_, rfl, by omega⟩
  | recorded => exact keeps fun _ => .inl nofun

theorem LastToken.step (last : store.LastToken identity token)
    (noDispatch : ∀ other leaseStart leaseEnd,
      ¬event.Dispatches text store identity other leaseStart leaseEnd) :
    LastToken (event.leaves text store) identity token := by
  obtain ⟨row, stored, isToken⟩ := last
  have step := replayStep text store event
  generalize answered : event.answer text store = answer at step
  generalize event.leaves text store = after at step
  cases step with
  | quiet => exact ⟨row, stored, isToken⟩
  | @opened reservation other now leaseSeconds lease fresh =>
    by_cases here : reservation.identity = identity
    · exact absurd ⟨here, rfl, rfl, answered⟩ (noDispatch other now (now + leaseSeconds))
    · exact ⟨row, by rw [Dict.get?_set, if_neg (Ne.symm here)]; exact stored, isToken⟩
  | @tookOver reservation other now leaseSeconds _ lease =>
    by_cases here : reservation.identity = identity
    · exact absurd ⟨here, rfl, rfl, answered⟩ (noDispatch other now (now + leaseSeconds))
    · exact ⟨row, by rw [Dict.get?_set, if_neg (Ne.symm here)]; exact stored, isToken⟩
  | @recorded reservation _ _ _ row' stored' _ held =>
    by_cases here : identity = reservation.identity
    · subst here
      rw [stored] at stored'
      cases stored'
      refine ⟨_, by rw [Dict.get?_set, if_pos rfl], ?_⟩
      exact isToken
    · exact ⟨row, by rw [Dict.get?_set, if_neg here]; exact stored, isToken⟩

theorem of_dispatches {leaseStart leaseEnd : ℤ}
    (dispatched : event.Dispatches text store identity token leaseStart leaseEnd) :
    LastToken (event.leaves text store) identity token ∧
      Held (event.leaves text store) identity leaseEnd := by
  cases event with
  | look => exact dispatched.elim
  | record => exact dispatched.elim
  | claim reservation drawn now leaseSeconds =>
    obtain ⟨rfl, rfl, rfl, answered⟩ := dispatched
    have step := replayStep text store (.claim reservation drawn leaseStart leaseSeconds)
    rw [answered] at step
    generalize ReplayEvent.leaves text store _ = after at step
    cases step with
    | quiet silent => exact absurd rfl (silent token)
    | opened =>
      exact ⟨⟨_, by rw [Dict.get?_set, if_pos rfl], rfl⟩,
        ⟨_, by rw [Dict.get?_set, if_pos rfl], .inr ⟨_, rfl, le_rfl⟩⟩⟩
    | tookOver =>
      exact ⟨⟨_, by rw [Dict.get?_set, if_pos rfl], rfl⟩,
        ⟨_, by rw [Dict.get?_set, if_pos rfl], .inr ⟨_, rfl, le_rfl⟩⟩⟩

theorem Held.le_dispatch {time : ℤ} (held : store.Held identity time) {leaseStart leaseEnd : ℤ}
    (dispatched : event.Dispatches text store identity token leaseStart leaseEnd) :
    time ≤ leaseStart := by
  cases event with
  | look => exact dispatched.elim
  | record => exact dispatched.elim
  | claim reservation drawn now leaseSeconds =>
    obtain ⟨rfl, rfl, rfl, answered⟩ := dispatched
    obtain ⟨row, stored, until'⟩ := held
    have step := replayStep text store (.claim reservation drawn leaseStart leaseSeconds)
    rw [answered] at step
    generalize ReplayEvent.leaves text store _ = after at step
    cases step with
    | quiet silent => exact absurd rfl (silent token)
    | opened lease fresh =>
      rw [stored] at fresh
      cases fresh
    | tookOver lease stored' _ noStatus _ runOut =>
      rw [stored] at stored'
      cases stored'
      rcases until' with recorded | ⟨last, isLast, later⟩
      · exact absurd noStatus recorded
      · exact later.trans (runOut last isLast)

theorem MayRecord.lastToken (may : MayRecord text store identity token) :
    store.LastToken identity token := by
  obtain ⟨reservation, status, body, after, rfl, done⟩ := may
  obtain ⟨row, stored, -, isToken, -⟩ := recordReplayOutcome_ok done
  exact ⟨row, stored, isToken⟩

theorem LastToken.unique {first second : String} (left : store.LastToken identity first)
    (right : store.LastToken identity second) :
    first = second := by
  obtain ⟨row, stored, isFirst⟩ := left
  obtain ⟨row', stored', isSecond⟩ := right
  rw [stored] at stored'
  cases stored'
  exact Option.some.inj (isFirst.symm.trans isSecond)

theorem Recorded.not_mayRecord {requestHash body : String}
    (recorded : store.Recorded identity requestHash status body) (token : String) :
    ¬MayRecord text store identity token := by
  rintro ⟨reservation, _, _, after, rfl, done⟩
  obtain ⟨row, stored, -, -, noStatus, -⟩ := recordReplayOutcome_ok done
  obtain ⟨row', stored', -, isStatus, -⟩ := recorded
  rw [stored] at stored'
  cases stored'
  rw [noStatus] at isStatus
  cases isStatus

end ReplayStore

/-! ## Runs -/

section Runs

variable (text : BodyText β) {start : ReplayStore π}

abbrev replayAfter (start : ReplayStore π) (events : List (ReplayEvent π β)) : ReplayStore π :=
  after (fun store event => event.leaves text store) start events

/-- What every run keeps, whatever its requests, clocks, leases and tokens. -/
structure ReplayKept (start : ReplayStore π) (events : List (ReplayEvent π β)) : Prop where
  /-- One attempt may record at a time. -/
  one_recorder : ∀ done, done <+: events → ∀ identity first second,
    (replayAfter text start done).MayRecord text identity first →
    (replayAfter text start done).MayRecord text identity second → first = second
  /-- It is the one dispatched last: an attempt that was taken over records nothing. -/
  last_recorder : ∀ done event later, done ++ event :: later <+: events →
    ∀ identity token leaseStart leaseEnd,
      event.Dispatches text (replayAfter text start done) identity token leaseStart leaseEnd →
      (∀ between next, between ++ [next] <+: later → ∀ other leaseStart leaseEnd,
        ¬next.Dispatches text (replayAfter text start (done ++ event :: between)) identity other
          leaseStart leaseEnd) →
      ∀ recorder, (replayAfter text start (done ++ event :: later)).MayRecord text identity recorder →
        recorder = token
  /-- A recorded outcome is there for good, and nothing more is recorded of its request. -/
  one_outcome : ∀ done later, done ++ later <+: events → ∀ identity requestHash status body,
    (replayAfter text start done).Recorded identity requestHash status body →
    (replayAfter text start (done ++ later)).Recorded identity requestHash status body ∧
      ∀ recorder, ¬(replayAfter text start (done ++ later)).MayRecord text identity recorder
  /-- Every later claim with its hash is answered with it. -/
  completed : ∀ done reservation status body token later, done ++
    ReplayEvent.record reservation status body token :: later <+: events →
    (ReplayEvent.record reservation status body token).answer text (replayAfter text start done)
      = .recorded →
    ∀ claiming drawn now leaseSeconds, claiming.identity = reservation.identity →
      claiming.requestHash = reservation.requestHash → 0 < leaseSeconds →
      let store := replayAfter text start
        (done ++ ReplayEvent.record reservation status body token :: later)
      (ReplayEvent.claim claiming drawn now leaseSeconds).answer text store
        = .retry (.completed status body) ∧
        (ReplayEvent.claim claiming drawn now leaseSeconds : ReplayEvent π β).leaves text store
          = store
  /-- A claim with another hash than the row's is refused and leaves the table. -/
  changed : ∀ done, done <+: events → ∀ claiming row drawn now leaseSeconds,
    (replayAfter text start done).get? claiming.identity = some row →
    row.requestHash ≠ claiming.requestHash →
    let answer := (ReplayEvent.claim claiming drawn now leaseSeconds).answer text
      (replayAfter text start done)
    (∀ token, answer ≠ .dispatch token) ∧ (0 < leaseSeconds → answer = .reused) ∧
      (ReplayEvent.claim claiming drawn now leaseSeconds : ReplayEvent π β).leaves text
        (replayAfter text start done) = replayAfter text start done
  /-- Of two dispatches of one request the later starts when the earlier's lease is over. -/
  leases : ∀ done first between second, done ++ first :: (between ++ [second]) <+: events →
    ∀ identity token start₁ end₁ token' start₂ end₂,
      first.Dispatches text (replayAfter text start done) identity token start₁ end₁ →
      second.Dispatches text (replayAfter text start (done ++ first :: between)) identity token'
        start₂ end₂ →
      end₁ ≤ start₂

theorem recorded_after {identity : π × String} {requestHash body : String}
    (recorded : start.Recorded identity requestHash status body) (events : List (ReplayEvent π β)) :
    (replayAfter text start events).Recorded identity requestHash status body :=
  (Throughout.of_step (P := fun store => ReplayStore.Recorded store identity requestHash status body)
    (fun _ event kept => kept.step event) recorded events).last

theorem held_after {identity : π × String} {time : ℤ} (held : start.Held identity time)
    (events : List (ReplayEvent π β)) :
    (replayAfter text start events).Held identity time :=
  (Throughout.of_step (P := fun store => ReplayStore.Held store identity time)
    (fun _ event kept => kept.step event) held events).last

theorem lastToken_after {identity : π × String} {token : String}
    (last : start.LastToken identity token) (events : List (ReplayEvent π β))
    (quiet : ∀ between next, between ++ [next] <+: events → ∀ other leaseStart leaseEnd,
      ¬next.Dispatches text (replayAfter text start between) identity other leaseStart leaseEnd) :
    (replayAfter text start events).LastToken identity token := by
  induction events using List.reverseRecOn with
  | nil => exact last
  | append_singleton between next ih =>
    have earlier := ih fun between' next' isPrefix =>
      quiet between' next' (isPrefix.trans (List.prefix_append _ _))
    rw [replayAfter, after_append]
    exact earlier.step (quiet between next List.prefix_rfl)

theorem claim_recorded {store : ReplayStore π} {claiming : ReplayReservation π} {body : String}
    (recorded : store.Recorded claiming.identity claiming.requestHash status body) (drawn : String)
    (now leaseSeconds : ℤ) :
    claimReplay text store claiming drawn now leaseSeconds
      = .ok (.completed status (text.loads body), store) := by
  obtain ⟨row, stored, hash, isStatus, isBody⟩ := recorded
  simp only [claimReplay, stored, hash, isStatus, isBody, ne_eq, not_true_eq_false, if_false]

/-- Signed requests keep one outcome under one live attempt. -/
theorem replay_kept (text : BodyText β) (start : ReplayStore π) (events : List (ReplayEvent π β)) :
    ReplayKept text start events where
  one_recorder _ _ _ _ _ first second := first.lastToken.unique second.lastToken
  last_recorder done event later _ identity token _ _ dispatched quiet recorder may := by
    have last := (ReplayStore.of_dispatches dispatched).1
    have kept := lastToken_after text last later fun between next isPrefix => by
      have silent := quiet between next isPrefix
      rwa [replayAfter, after_append] at silent
    rw [replayAfter, after_append] at may
    exact may.lastToken.unique kept
  one_outcome done later _ identity requestHash status body recorded := by
    have kept := recorded_after text recorded later
    rw [replayAfter, after_append]
    exact ⟨kept, fun recorder => kept.not_mayRecord recorder⟩
  completed done reservation status body token later _ answered claiming drawn now leaseSeconds
      same hash lease := by
    have step := replayStep text (replayAfter text start done)
      (ReplayEvent.record reservation status body token)
    rw [answered] at step
    have recorded : ReplayStore.Recorded
        ((ReplayEvent.record reservation status body token).leaves text
          (replayAfter text start done))
        claiming.identity claiming.requestHash status (text.dumps body) := by
      generalize ReplayEvent.leaves text (replayAfter text start done) _ = left at step ⊢
      cases step with
      | quiet _ unrecorded => exact absurd rfl unrecorded
      | recorded _ hash' =>
        refine ⟨_, by rw [Dict.get?_set, if_pos same], ?_, rfl, rfl⟩
        exact hash'.trans hash.symm
    have kept := recorded_after text recorded later
    have whole : replayAfter text start
        (done ++ ReplayEvent.record reservation status body token :: later)
        = replayAfter text ((ReplayEvent.record reservation status body token).leaves text
          (replayAfter text start done)) later := after_append _ _ _
    simp only
    rw [whole]
    generalize replayAfter text
      (ReplayEvent.leaves text (replayAfter text start done) _) later = store at kept ⊢
    have claimed := claim_recorded text kept drawn now leaseSeconds
    rw [text.loads_dumps] at claimed
    constructor
    · simp only [ReplayEvent.answer, not_le.mpr lease, if_false, claimed]
    · simp only [ReplayEvent.leaves, not_le.mpr lease, if_false, claimed]
  changed done _ claiming row drawn now leaseSeconds stored hash := by
    have claimed : claimReplay text (replayAfter text start done) claiming drawn now leaseSeconds
        = .ok (.changed, replayAfter text start done) := by
      simp only [claimReplay, stored, ne_eq, hash, not_false_eq_true, if_true]
    by_cases lease : leaseSeconds ≤ 0
    · simp only [ReplayEvent.answer, ReplayEvent.leaves, lease, if_true]
      exact ⟨fun _ never => (by cases never), fun positive => absurd lease (not_le.mpr positive), trivial⟩
    · simp only [ReplayEvent.answer, ReplayEvent.leaves, lease, if_false, claimed]
      exact ⟨fun _ never => (by cases never), fun _ => trivial, trivial⟩
  leases done first between second _ identity token _ _ token' _ _ dispatched dispatched' := by
    have held := (ReplayStore.of_dispatches dispatched).2
    have kept := held_after text held between
    rw [replayAfter, after_append] at dispatched'
    exact kept.le_dispatch dispatched'

end Runs

end ComputeMarket.Storefront
