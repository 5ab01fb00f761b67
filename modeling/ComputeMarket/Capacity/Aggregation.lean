import ComputeMarket.Library.Json
import ComputeMarket.Library.Table

/-!
# Writes over several sites

`AggregateCapacityClient` routes a write on a reservation to the site that holds it: the site it
was reserved at when that is remembered, then every other site in turn. `commit` and
`activate_lease` keep the most informative of the failures on the way and raise it when no site
has answered; `release` and `truncate_lease` go past a failure and forget it.

`Answers` is what each site says to one write. `AggregateCapacityClient.release_reports_iff`
says for which answers a released or truncated reservation is reported as lost by no site only
when every site has disclaimed it, and `commit_raises`, `activateLease_raises` that the failure
the other two raise is one of the highest rank.
-/

namespace ComputeMarket.Capacity

/-- What a site's client raised: its text, and the status it carries, where a site answered. -/
structure SiteFailure where
  message : String
  status_code : Option ℤ
  deriving DecidableEq

def failureRank (failure : SiteFailure) : ℕ :=
  match failure.status_code with
  | some status => if status = 404 then 0 else 2
  | none => 1

def moreInformative (kept : Option SiteFailure) (failure : SiteFailure) : SiteFailure :=
  match kept with
  | some kept => if failureRank kept > failureRank failure then kept else failure
  | none => failure

def Highest (failure : SiteFailure) (failures : List SiteFailure) : Prop :=
  failure ∈ failures ∧ ∀ other ∈ failures, failureRank other ≤ failureRank failure

theorem Highest.single (failure : SiteFailure) : Highest failure [failure] :=
  ⟨List.mem_singleton_self failure, fun _ inside => by rw [List.mem_singleton.mp inside]⟩

variable {failure : SiteFailure}

theorem Highest.moreInformative {kept : SiteFailure} {failures : List SiteFailure}
    (highest : Highest kept failures) :
    Highest (moreInformative (some kept) failure) (failures ++ [failure]) := by
  unfold Capacity.moreInformative
  obtain ⟨inside, ranks⟩ := highest
  dsimp only
  split
  next above =>
      refine ⟨List.mem_append_left _ inside, fun other member => ?_⟩
      rcases List.mem_append.mp member with earlier | last
      · exact ranks other earlier
      · rw [List.mem_singleton.mp last]
        exact above.le
  next above =>
      refine ⟨List.mem_append_right _ (List.mem_singleton_self failure), fun other member => ?_⟩
      rcases List.mem_append.mp member with earlier | last
      · exact (ranks other earlier).trans (not_lt.mp above)
      · rw [List.mem_singleton.mp last]

/-! ## The client -/

abbrev Reservation := Fields Json

def tagged (site : String) (payload : Reservation) : Reservation :=
  payload.put "site" (.str site)

/-- What each site's client does with one write: it answers with the reservation, answers that
there is none, or raises. -/
abbrev Answers := String → Except SiteFailure (Option Reservation)

inductive Raised
  | key_error (site : String)
  | site (failure : SiteFailure)
  deriving DecidableEq

/-- `AggregateCapacityClient`: the sites by name, and the site each reservation was made at. -/
structure AggregateCapacityClient where
  site_names : List String
  distinct : site_names.Nodup
  nonempty : site_names ≠ []
  reservation_sites : Dict String String

namespace AggregateCapacityClient

variable (client : AggregateCapacityClient)

/-- `if capacity_reservation_id`: an identifier that is neither absent nor empty. -/
def truthy : Option String → Option String
  | some text => if text = "" then none else some text
  | none => none

def cachedSite (capacity_reservation_id : Option String) : Option String :=
  match truthy capacity_reservation_id with
  | none => none
  | some id =>
    match client.reservation_sites.get? id with
    | some cached => if cached ≠ "" ∧ cached ∈ client.site_names then some cached else none
    | none => none

def routeOrder (capacity_reservation_id : Option String) : List String :=
  match client.cachedSite capacity_reservation_id with
  | some cached => cached :: client.site_names.filter (· ≠ cached)
  | none => client.site_names

/-- `self._reservation_sites.pop(id, None)`. -/
def forget (id : String) : AggregateCapacityClient :=
  { client with
    reservation_sites :=
      ⟨client.reservation_sites.rows.filter (·.1 ≠ id),
        client.reservation_sites.distinct.sublist (List.Sublist.map _ List.filter_sublist)⟩ }

/-- `if capacity_reservation_id: self._reservation_sites.pop(...)`. -/
def forgetReleased (capacity_reservation_id : Option String) : AggregateCapacityClient :=
  match truthy capacity_reservation_id with
  | some id => client.forget id
  | none => client

/-- `self._sites[site_id]` and its write. -/
def atSite (answers : Answers) (site_id : String) : Except Raised (Option Reservation) :=
  if site_id ∈ client.site_names then
    match answers site_id with
    | .ok answered => .ok (answered.map (tagged site_id))
    | .error failure => .error (.site failure)
  else .error (.key_error site_id)

/-! ## The four routed writes -/

def raiseKept : Option SiteFailure → Except Raised (Option Reservation)
  | some failure => .error (.site failure)
  | none => .ok none

/-- The loop of `commit`: the first answer counts, also that there is none. -/
def commitLoop (answers : Answers) :
    List String → Option SiteFailure → Except Raised (Option Reservation)
  | [], failure => raiseKept failure
  | name :: rest, failure =>
    match answers name with
    | .ok committed => .ok (committed.map (tagged name))
    | .error raised => commitLoop answers rest (some (moreInformative failure raised))

def commit (answers : Answers) (capacity_reservation_id site_id : Option String) :
    Except Raised (Option Reservation) :=
  match site_id with
  | some site => client.atSite answers site
  | none => commitLoop answers (client.routeOrder capacity_reservation_id) none

/-- The loop of `activate_lease`: the first reservation counts. -/
def activateLoop (answers : Answers) :
    List String → Option SiteFailure → Except Raised (Option Reservation)
  | [], failure => raiseKept failure
  | name :: rest, failure =>
    match answers name with
    | .ok (some activated) => .ok (some (tagged name activated))
    | .ok none => activateLoop answers rest failure
    | .error raised => activateLoop answers rest (some (moreInformative failure raised))

def activateLease (answers : Answers) (capacity_reservation_id site_id : Option String) :
    Except Raised (Option Reservation) :=
  match site_id with
  | some site => client.atSite answers site
  | none => activateLoop answers (client.routeOrder capacity_reservation_id) none

/-- The loop of `release` and of `truncate_lease`: the first reservation counts, and a failure
is logged and skipped. -/
def skippingLoop (answers : Answers) : List String → Option Reservation
  | [] => none
  | name :: rest =>
    match answers name with
    | .ok (some done) => some (tagged name done)
    | .ok none => skippingLoop answers rest
    | .error _ => skippingLoop answers rest

/-- What `release` returns. -/
def releaseOutcome (answers : Answers) (capacity_reservation_id site_id : Option String) :
    Except Raised (Option Reservation) :=
  match site_id with
  | some site => client.atSite answers site
  | none => .ok (skippingLoop answers (client.routeOrder capacity_reservation_id))

/-- `release`: the client it leaves, and what it returns. A released reservation is no longer
remembered. -/
def release (answers : Answers) (capacity_reservation_id site_id : Option String) :
    AggregateCapacityClient × Except Raised (Option Reservation) :=
  match client.releaseOutcome answers capacity_reservation_id site_id with
  | .ok (some released) => (client.forgetReleased capacity_reservation_id, .ok (some released))
  | .ok none => (client, .ok none)
  | .error raised => (client, .error raised)

def truncateLease (answers : Answers) (capacity_reservation_id : String)
    (site_id : Option String) : Except Raised (Option Reservation) :=
  match site_id with
  | some site => client.atSite answers site
  | none => .ok (skippingLoop answers (client.routeOrder (some capacity_reservation_id)))

theorem mem_routeOrder {capacity_reservation_id : Option String} {name : String} :
    name ∈ client.routeOrder capacity_reservation_id ↔ name ∈ client.site_names := by
  unfold routeOrder
  cases known : client.cachedSite capacity_reservation_id with
  | none => rfl
  | some cached =>
    have member : cached ∈ client.site_names := by
      unfold cachedSite at known
      split at known
      next => cases known
      next =>
          split at known
          next =>
              split at known
              next here =>
                  cases known
                  exact here.2
              next => cases known
          next => cases known
    simp only [List.mem_cons, List.mem_filter, decide_eq_true_eq]
    constructor
    · rintro (rfl | ⟨inside, -⟩)
      · exact member
      · exact inside
    · intro inside
      by_cases first : name = cached
      · exact .inl first
      · exact .inr ⟨inside, first⟩

def Addressed (site_id : Option String) (name : String) : Prop :=
  match site_id with
  | some site => name = site ∧ site ∈ client.site_names
  | none => name ∈ client.site_names

end AggregateCapacityClient

/-! ## What a write reports -/

def Holds (answer : Except SiteFailure (Option Reservation)) : Prop :=
  ∃ reservation, answer = .ok (some reservation)

/-- The site has said that it does not hold the reservation: there is none, or it does not know
it (404). -/
def Disclaims (answer : Except SiteFailure (Option Reservation)) : Prop :=
  answer = .ok none ∨ ∃ failure, answer = .error failure ∧ failure.status_code = some 404

def MayHold (answer : Except SiteFailure (Option Reservation)) : Prop :=
  ∃ failure, answer = .error failure ∧ failure.status_code ≠ some 404

theorem holds_or (answer : Except SiteFailure (Option Reservation)) :
    Holds answer ∨ Disclaims answer ∨ MayHold answer := by
  rcases answer with failure | (_ | reservation)
  · by_cases unknown : failure.status_code = some 404
    · exact .inr (.inl (.inr ⟨failure, rfl, unknown⟩))
    · exact .inr (.inr ⟨failure, rfl, unknown⟩)
  · exact .inr (.inl (.inl rfl))
  · exact .inl ⟨reservation, rfl⟩

theorem MayHold.not_disclaims {answer : Except SiteFailure (Option Reservation)}
    (may : MayHold answer) : ¬ Disclaims answer := by
  obtain ⟨failure, rfl, known⟩ := may
  rintro (none | ⟨other, same, unknown⟩)
  · cases none
  · cases same
    exact known unknown

namespace AggregateCapacityClient

variable (client : AggregateCapacityClient) {answers : Answers} {route : List String}

/-- A write loses no reservation: it returns `None` only where every site it was put to has
disclaimed the reservation, and where none carried it out and one may hold it, it raises. -/
def LosesNone (answers : Answers) (site_id : Option String)
    (outcome : Except Raised (Option Reservation)) : Prop :=
  (outcome = .ok none → ∀ name, client.Addressed site_id name → Disclaims (answers name)) ∧
    ((∃ name, client.Addressed site_id name ∧ MayHold (answers name)) →
      (∀ name, client.Addressed site_id name → ¬ Holds (answers name)) →
      ∃ raised, outcome = .error raised)

/-- The writes that lose no reservation: one that names its site, or one where some site
carries it out or no site fails otherwise than by not knowing the reservation. -/
def Reports (answers : Answers) (site_id : Option String) : Prop :=
  site_id ≠ none ∨ (∃ name ∈ client.site_names, Holds (answers name)) ∨
    ∀ name ∈ client.site_names, ¬ MayHold (answers name)

variable {client}

theorem atSite_losesNone (answers : Answers) (site : String) :
    client.LosesNone answers (some site) (client.atSite answers site) := by
  unfold atSite
  constructor
  · intro none name addressed
    obtain ⟨rfl, member⟩ := addressed
    rw [if_pos member] at none
    rcases holds_or (answers name) with ⟨reservation, held⟩ | disclaims | ⟨failure, failed, -⟩
    · rw [held] at none
      cases none
    · exact disclaims
    · rw [failed] at none
      cases none
  · rintro ⟨name, ⟨rfl, member⟩, failure, failed, -⟩ -
    rw [if_pos member, failed]
    exact ⟨_, rfl⟩

theorem skippingLoop_eq_none :
    skippingLoop answers route = none ↔ ∀ name ∈ route, ¬ Holds (answers name) := by
  induction route with
  | nil => exact ⟨fun _ _ inside => absurd inside List.not_mem_nil, fun _ => rfl⟩
  | cons name rest ih =>
    rw [skippingLoop, List.forall_mem_cons]
    rcases known : answers name with failure | (_ | reservation)
    · simp [ih, Holds]
    · simp [ih, Holds]
    · simp [Holds]

theorem skipping_losesNone_iff (answers : Answers) (capacity_reservation_id : Option String) :
    client.LosesNone answers none
        (.ok (skippingLoop answers (client.routeOrder capacity_reservation_id))) ↔
      client.Reports answers none := by
  have empty : skippingLoop answers (client.routeOrder capacity_reservation_id) = none ↔
      ∀ name ∈ client.site_names, ¬ Holds (answers name) := by
    rw [skippingLoop_eq_none]
    simp only [mem_routeOrder]
  constructor
  · rintro ⟨disclaimed, -⟩
    refine .inr ?_
    by_cases held : ∃ name ∈ client.site_names, Holds (answers name)
    · exact .inl held
    · refine .inr fun name member may => may.not_disclaims ?_
      refine disclaimed (congrArg Except.ok (empty.mpr fun name member holds => ?_)) name member
      exact held ⟨name, member, holds⟩
  · rintro (named | ⟨name, member, holds⟩ | clear)
    · exact absurd rfl named
    · constructor
      · intro none
        exact absurd holds (empty.mp (Except.ok.inj none) name member)
      · intro _ unheld
        exact absurd holds (unheld name member)
    · constructor
      · intro none name member
        rcases holds_or (answers name) with holds | disclaims | may
        · exact absurd holds (empty.mp (Except.ok.inj none) name member)
        · exact disclaims
        · exact absurd may (clear name member)
      · rintro ⟨name, member, may⟩ -
        exact absurd may (clear name member)

theorem release_snd (answers : Answers) (capacity_reservation_id site_id : Option String) :
    (client.release answers capacity_reservation_id site_id).2 =
      client.releaseOutcome answers capacity_reservation_id site_id := by
  unfold release
  rcases client.releaseOutcome answers capacity_reservation_id site_id with raised | (_ | released)
  all_goals rfl

theorem named_losesNone_iff (answers : Answers) (site : String) :
    client.LosesNone answers (some site) (client.atSite answers site) ↔
      client.Reports answers (some site) :=
  ⟨fun _ => .inl (Option.some_ne_none site), fun _ => atSite_losesNone answers site⟩

theorem release_losesNone_iff (answers : Answers) (capacity_reservation_id site_id : Option String) :
    client.LosesNone answers site_id
        (client.release answers capacity_reservation_id site_id).2 ↔
      client.Reports answers site_id := by
  rw [release_snd]
  cases site_id with
  | some site => exact named_losesNone_iff answers site
  | none => exact skipping_losesNone_iff answers capacity_reservation_id

theorem truncateLease_losesNone_iff (answers : Answers) (capacity_reservation_id : String)
    (site_id : Option String) :
    client.LosesNone answers site_id
        (client.truncateLease answers capacity_reservation_id site_id) ↔
      client.Reports answers site_id := by
  cases site_id with
  | some site => exact named_losesNone_iff answers site
  | none => exact skipping_losesNone_iff answers (some capacity_reservation_id)

/-! ## The failure that is raised -/

variable {kept : Option SiteFailure} {behind : List SiteFailure}
    {capacity_reservation_id : Option String}

def failures (answers : Answers) (route : List String) : List SiteFailure :=
  route.filterMap fun name =>
    match answers name with
    | .error failure => some failure
    | .ok _ => none

theorem mem_failures :
    failure ∈ failures answers route ↔ ∃ name ∈ route, answers name = .error failure := by
  unfold failures
  rw [List.mem_filterMap]
  constructor
  · rintro ⟨name, member, shown⟩
    rcases known : answers name with raised | answered
    · rw [known] at shown
      cases shown
      exact ⟨name, member, known⟩
    · rw [known] at shown
      cases shown
  · rintro ⟨name, member, failed⟩
    exact ⟨name, member, by rw [failed]⟩

def Kept (kept : Option SiteFailure) (behind : List SiteFailure) : Prop :=
  match kept with
  | some failure => Highest failure behind
  | none => behind = []

theorem Kept.start : Kept none [] := rfl

theorem Kept.next (known : Kept kept behind) (failure : SiteFailure) :
    Kept (some (moreInformative kept failure)) (behind ++ [failure]) := by
  cases kept with
  | none =>
    cases known
    exact Highest.single failure
  | some kept => exact Highest.moreInformative known

theorem Kept.raised (known : Kept kept behind) {raised : Raised}
    (raises : raiseKept kept = .error raised) :
    ∃ failure, raised = .site failure ∧ Highest failure behind := by
  cases kept with
  | none => cases raises
  | some failure =>
    cases raises
    exact ⟨failure, rfl, known⟩

theorem commitLoop_raises (known : Kept kept behind) {raised : Raised}
    (raises : commitLoop answers route kept = .error raised) :
    ∃ failure, raised = .site failure ∧ Highest failure (behind ++ failures answers route) := by
  induction route generalizing kept behind with
  | nil =>
    obtain ⟨failure, same, highest⟩ := known.raised raises
    exact ⟨failure, same, by rwa [failures, List.filterMap_nil, List.append_nil]⟩
  | cons name rest ih =>
    rw [commitLoop] at raises
    rw [failures, List.filterMap_cons]
    rcases answered : answers name with failure | committed
    · rw [answered] at raises
      obtain ⟨highest, same, top⟩ := ih (known.next failure) raises
      rw [List.append_assoc, List.singleton_append] at top
      exact ⟨highest, same, top⟩
    · rw [answered] at raises
      cases raises

theorem activateLoop_raises (known : Kept kept behind) {raised : Raised}
    (raises : activateLoop answers route kept = .error raised) :
    ∃ failure, raised = .site failure ∧ Highest failure (behind ++ failures answers route) := by
  induction route generalizing kept behind with
  | nil =>
    obtain ⟨failure, same, highest⟩ := known.raised raises
    exact ⟨failure, same, by rwa [failures, List.filterMap_nil, List.append_nil]⟩
  | cons name rest ih =>
    rw [activateLoop] at raises
    rw [failures, List.filterMap_cons]
    rcases answered : answers name with failure | (_ | activated)
    · rw [answered] at raises
      obtain ⟨highest, same, top⟩ := ih (known.next failure) raises
      rw [List.append_assoc, List.singleton_append] at top
      exact ⟨highest, same, top⟩
    · rw [answered] at raises
      exact ih known raises
    · rw [answered] at raises
      cases raises

/-- The failure was raised by a site the write was put to, and no other site's is of a higher
rank. -/
def RaisesHighest (client : AggregateCapacityClient) (answers : Answers) (site_id : Option String)
    (failure : SiteFailure) : Prop :=
  (∃ name, client.Addressed site_id name ∧ answers name = .error failure) ∧
    ∀ name other, client.Addressed site_id name → answers name = .error other →
      failureRank other ≤ failureRank failure

theorem RaisesHighest.of_route
    (highest : Highest failure (failures answers (client.routeOrder capacity_reservation_id))) :
    client.RaisesHighest answers none failure := by
  obtain ⟨member, ranks⟩ := highest
  obtain ⟨name, routed, failed⟩ := mem_failures.mp member
  refine ⟨⟨name, (client.mem_routeOrder).mp routed, failed⟩, fun name other addressed raised => ?_⟩
  exact ranks other (mem_failures.mpr ⟨name, (client.mem_routeOrder).mpr addressed, raised⟩)

theorem atSite_raises {site : String}
    (raises : client.atSite answers site = .error (.site failure)) :
    client.RaisesHighest answers (some site) failure := by
  unfold atSite at raises
  split at raises
  next member =>
      rcases known : answers site with raised | answered
      · rw [known] at raises
        cases raises
        refine ⟨⟨site, ⟨rfl, member⟩, known⟩, ?_⟩
        rintro name other ⟨rfl, -⟩ failed
        rw [known] at failed
        cases failed
        exact le_rfl
      · rw [known] at raises
        cases raises
  next => cases raises

theorem commit_raises {site_id : Option String}
    (raises : client.commit answers capacity_reservation_id site_id = .error (.site failure)) :
    client.RaisesHighest answers site_id failure := by
  cases site_id with
  | some site => exact atSite_raises raises
  | none =>
    obtain ⟨highest, same, top⟩ := commitLoop_raises Kept.start raises
    cases same
    exact .of_route top

theorem activateLease_raises {site_id : Option String} (raises :
      client.activateLease answers capacity_reservation_id site_id = .error (.site failure)) :
    client.RaisesHighest answers site_id failure := by
  cases site_id with
  | some site => exact atSite_raises raises
  | none =>
    obtain ⟨highest, same, top⟩ := activateLoop_raises Kept.start raises
    cases same
    exact .of_route top

/-- **What the routed writes report.** `release` and `truncate_lease` lose no reservation exactly
where the write names its site, some site carries it out, or no site fails that may hold it;
`commit` and `activate_lease` raise a failure of the highest rank. -/
theorem release_reports_iff (client : AggregateCapacityClient) (answers : Answers)
    (site_id : Option String) :
    (∀ capacity_reservation_id,
      client.LosesNone answers site_id
          (client.release answers capacity_reservation_id site_id).2 ↔
        client.Reports answers site_id) ∧
    (∀ capacity_reservation_id,
      client.LosesNone answers site_id
          (client.truncateLease answers capacity_reservation_id site_id) ↔
        client.Reports answers site_id) ∧
    ∀ capacity_reservation_id failure,
      (client.commit answers capacity_reservation_id site_id = .error (.site failure) →
        client.RaisesHighest answers site_id failure) ∧
      (client.activateLease answers capacity_reservation_id site_id = .error (.site failure) →
        client.RaisesHighest answers site_id failure) :=
  ⟨fun capacity_reservation_id => release_losesNone_iff answers capacity_reservation_id site_id,
    fun capacity_reservation_id =>
      truncateLease_losesNone_iff answers capacity_reservation_id site_id,
    fun _ _ => ⟨commit_raises, activateLease_raises⟩⟩

theorem twoSites_distinct : ["dc-a", "dc-b"].Nodup := by decide

theorem twoSites_nonempty : ["dc-a", "dc-b"] ≠ [] := List.cons_ne_nil _ _

theorem oneReservation_distinct : ([("res-a-a1", "dc-a")].map key : List String).Nodup := by decide

def twoSites : AggregateCapacityClient where
  site_names := ["dc-a", "dc-b"]
  distinct := twoSites_distinct
  nonempty := twoSites_nonempty
  reservation_sites := ⟨[("res-a-a1", "dc-a")], oneReservation_distinct⟩

/-- The first site cannot be reached, and the second has no such reservation. -/
def ownerDown : Answers := fun site =>
  if site = "dc-a" then .error ⟨"site down", none⟩ else .ok none

/-- A release whose owning site cannot be reached returns `None`, as one that no site holds. -/
theorem release_loses_unreachable :
    (twoSites.release ownerDown (some "res-a-a1") none).2 = .ok none ∧
      ¬ twoSites.LosesNone ownerDown none
          (twoSites.release ownerDown (some "res-a-a1") none).2 := by
  have outcome : (twoSites.release ownerDown (some "res-a-a1") none).2 = .ok none := by decide
  refine ⟨outcome, fun ⟨disclaimed, _⟩ => ?_⟩
  have owner := disclaimed outcome "dc-a" (show "dc-a" ∈ ["dc-a", "dc-b"] by decide)
  exact (show MayHold (ownerDown "dc-a") from ⟨⟨"site down", none⟩, rfl, by decide⟩).not_disclaims
    owner

end AggregateCapacityClient

end ComputeMarket.Capacity
