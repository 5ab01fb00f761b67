import ComputeMarket.Publication.Registries

/-!
# What the registries hold and what is recorded of it

A listing's status, its rows of `publications` and its copies at the registries, under any number
of operations beside each other. A row tells the status that the recorded request left, as long as
no later request has changed the copy (`Market.Tells`); where it does, a copy with another status
than the listing's has a row that disagrees with it (`Market.divergent_of_wrong`).
-/

namespace ComputeMarket.Publication

/-! ## The storefront and its registries -/

structure Copy where
  /-- The status it has there, where the registry holds it. -/
  status : Option ListingStatus
  /-- How often that has changed. -/
  changes : ℕ
  /-- A publish was attempted there. -/
  attempted : Bool

def Copy.decide (copy : Copy) : RegistryRequest → Option Copy
  | .publishListing =>
    match copy.status with
    | none => some { copy with status := some .opened, changes := copy.changes + 1 }
    | some _ => some copy
  | .updateListing status =>
    match copy.status with
    | none => none
    | some held =>
      some { copy with
        status := some status
        changes := if held = status then copy.changes else copy.changes + 1 }

def RegistryRequest.status : RegistryRequest → ListingStatus
  | .publishListing => .opened
  | .updateListing status => status

def Copy.attempt (copy : Copy) : RegistryRequest → Copy
  | .publishListing => { copy with attempted := true }
  | .updateListing _ => copy

@[simp] theorem Copy.attempt_status (copy : Copy) (request : RegistryRequest) :
    (copy.attempt request).status = copy.status := by
  cases request <;> rfl

@[simp] theorem Copy.attempt_changes (copy : Copy) (request : RegistryRequest) :
    (copy.attempt request).changes = copy.changes := by
  cases request <;> rfl

structure Copy.Decided (copy after : Copy) (request : RegistryRequest) : Prop where
  behind : copy.changes ≤ after.changes
  same : after.changes = copy.changes → after.status = copy.status
  attempted : after.attempted = copy.attempted
  holds : after.status = some request.status ∨
    copy.status = some .closed ∧ request = .publishListing ∧ after.status = some .closed

theorem Copy.decide_some {copy after : Copy} {request : RegistryRequest}
    (decided : copy.decide request = some after) : copy.Decided after request := by
  cases request with
  | publishListing =>
    rcases absent : copy.status with _ | held
    · simp only [Copy.decide, absent, Option.some.injEq] at decided
      subst decided
      exact ⟨Nat.le_succ _, fun same => absurd same (Nat.succ_ne_self _), rfl, .inl rfl⟩
    · simp only [Copy.decide, absent, Option.some.injEq] at decided
      subst decided
      refine ⟨le_rfl, fun _ => rfl, rfl, ?_⟩
      cases held with
      | opened => exact .inl absent
      | closed => exact .inr ⟨absent, rfl, absent⟩
  | updateListing status =>
    rcases absent : copy.status with _ | held
    · simp only [Copy.decide, absent, reduceCtorEq] at decided
    · simp only [Copy.decide, absent, Option.some.injEq] at decided
      subst decided
      refine ⟨?_, fun same => ?_, rfl, .inl rfl⟩
      · simp only
        split <;> omega
      · simp only at same ⊢
        split at same
        · next unchanged => rw [absent, unchanged]
        · omega

structure Market where
  listing : ListingStatus
  publications : Publications
  copies : String → Copy

namespace Market

def setCopy (market : Market) (url : String) (copy : Copy) : Market :=
  { market with copies := Function.update market.copies url copy }

/-- `l.status = 'open' AND p.status != 'published' OR l.status = 'closed' AND p.status !=
'unpublished'`. -/
def disagrees (listing : ListingStatus) (recorded : PublicationStatus) : Bool :=
  match listing with
  | .opened => recorded ≠ .published
  | .closed => recorded ≠ .unpublished

def sortedRows (market : Market) : List (String × PublicationRow) :=
  market.publications.rows.mergeSort fun first second => first.1 ≤ second.1

/-- The registries of `list_publication_divergence`. -/
def divergentUrls (market : Market) (registryUrls : List String) : List String :=
  (market.sortedRows.filter fun row =>
    row.1 ∈ registryUrls ∧ disagrees market.listing row.2.status).map Prod.fst

/-- `list_publication_divergence`, grouped as `publication_divergence` groups it. -/
def divergences (market : Market) (registryUrls : List String) : List RegistryDivergence :=
  if market.divergentUrls registryUrls = [] then []
  else [⟨market.listing, market.divergentUrls registryUrls⟩]

/-- How a query is answered: a request may be lost, or decided with its answer lost, and what the
storefront's tables are asked may fail. -/
def Answers (runtime : PublicationRuntime) :
    (query : PublicationQuery) → Market → PublicationAnswer query → Market → Prop
  | .requireBinding, market, _, left => left = market
  | .updateListing _, market, .error _, left => left = market
  | .updateListing status, market, .ok (), left => left = { market with listing := status }
  | .openRegistryClient, market, _, left => left = market
  | .turn pending, market, url, left => (pending ≠ [] → url ∈ pending) ∧ left = market
  | .request request url, market, result, left =>
    result.registryUrl = url ∧
      ((result.success = false ∧
          left = market.setCopy url ((market.copies url).attempt request)) ∨
        ∃ copy, ((market.copies url).attempt request).decide request = some copy ∧
          left = market.setCopy url copy ∧
          (result.success = true → result.decision =
            ⟨copy.changes, request = .publishListing ∧
              (market.copies url).status = some .closed⟩))
  | .loadPublications, market, answer, left =>
    left = market ∧ ∀ rows, answer = .ok rows →
      rows = market.sortedRows.map fun row => (row.1, row.2.status)
  | .upsertPublication _ _, market, .error _, left => left = market
  | .upsertPublication url row, market, .ok (), left =>
    left = { market with publications := market.publications.set url row }
  | .loadListing, market, _, left => left = market
  | .listPublicationDivergence, market, answer, left =>
    left = market ∧ ∀ rows, answer = .ok rows → rows = market.divergences runtime.registryUrls
  | .onPublished, market, _, left => left = market

structure Stands (market : Market) (url : String) (status : ListingStatus) (decision : Decision) :
    Prop where
  behind : decision.changes ≤ (market.copies url).changes
  holds : decision.changes = (market.copies url).changes → decision.overClosed = false →
    (market.copies url).status = some status

def Tells (market : Market) (url : String) (row : PublicationRow) : Prop :=
  match row.status with
  | .published => market.Stands url .opened row.decision
  | .unpublished => market.Stands url .closed row.decision
  | .failed => True

structure Inv (runtime : PublicationRuntime) (market : Market) : Prop where
  tells : ∀ url row, market.publications.get? url = some row → market.Tells url row
  attempted : ∀ url, (market.copies url).attempted = false → (market.copies url).status = none
  disabled : runtime.enabled = false → ∀ url, market.publications.get? url = none

structure Later (market left : Market) : Prop where
  behind : ∀ url, (market.copies url).changes ≤ (left.copies url).changes
  same : ∀ url, (left.copies url).changes = (market.copies url).changes →
    (left.copies url).status = (market.copies url).status

structure Onward (runtime : PublicationRuntime) (market left : Market) : Prop
    extends Later market left where
  inv : market.Inv runtime → left.Inv runtime

variable {runtime : PublicationRuntime} {market left : Market} {url : String}

theorem Later.refl (market : Market) : Later market market := ⟨fun _ => le_rfl, fun _ _ => rfl⟩

theorem Onward.refl (market : Market) : Onward runtime market market := ⟨.refl market, id⟩

theorem Onward.trans {first second third : Market} (before : Onward runtime first second)
    (behind : Onward runtime second third) : Onward runtime first third := by
  refine ⟨⟨fun url => (before.behind url).trans (behind.behind url), fun url unchanged => ?_⟩,
    fun inv => behind.inv (before.inv inv)⟩
  have earlier := before.behind url
  have later := behind.behind url
  rw [behind.same url (by omega), before.same url (by omega)]

theorem Stands.later {status : ListingStatus} {decision : Decision}
    (stands : market.Stands url status decision) (later : Later market left) :
    left.Stands url status decision := by
  have further := later.behind url
  refine ⟨stands.behind.trans further, fun current bare => ?_⟩
  have behind := stands.behind
  rw [later.same url (by omega)]
  exact stands.holds (by omega) bare

theorem Tells.later {row : PublicationRow} (tells : market.Tells url row)
    (later : Later market left) : left.Tells url row := by
  obtain ⟨status, decision⟩ := row
  cases status with
  | published => exact Stands.later tells later
  | unpublished => exact Stands.later tells later
  | failed => trivial

/-! ## What one answer does -/

theorem later_setCopy {copy : Copy} (behind : (market.copies url).changes ≤ copy.changes)
    (same : copy.changes = (market.copies url).changes →
      copy.status = (market.copies url).status) : Later market (market.setCopy url copy) := by
  refine ⟨fun other => ?_, fun other unchanged => ?_⟩
  · by_cases there : other = url
    · subst there
      simpa [setCopy] using behind
    · simp [setCopy, there]
  · by_cases there : other = url
    · subst there
      simp only [setCopy, Function.update_self] at unchanged ⊢
      exact same unchanged
    · simp [setCopy, there]

theorem onward_setCopy {copy : Copy} (behind : (market.copies url).changes ≤ copy.changes)
    (same : copy.changes = (market.copies url).changes →
      copy.status = (market.copies url).status)
    (attempted : market.Inv runtime → copy.attempted = false → copy.status = none) :
    Onward runtime market (market.setCopy url copy) := by
  have later := later_setCopy behind same
  refine ⟨later, fun inv => ⟨fun other row stored => ?_, fun other untouched => ?_, inv.disabled⟩⟩
  · exact (inv.tells other row stored).later later
  · by_cases there : other = url
    · subst there
      simp only [setCopy, Function.update_self] at untouched ⊢
      exact attempted inv untouched
    · simp only [setCopy, Function.update_of_ne there] at untouched ⊢
      exact inv.attempted other untouched

def Spoken (status : ListingStatus) (result : PublishResult) (market : Market) : Prop :=
  result.success = true → market.Stands result.registryUrl status result.decision

theorem onward_request {request : RegistryRequest} {result : PublishResult}
    (answered : Answers runtime (.request request url) market result left) :
    Onward runtime market left ∧ Spoken request.status result left := by
  obtain ⟨at_, ⟨failed, rfl⟩ | ⟨copy, decided, rfl, reports⟩⟩ := answered
  · refine ⟨onward_setCopy (by simp) (by simp) fun inv untouched => ?_, fun success => ?_⟩
    · cases request with
      | publishListing => cases untouched
      | updateListing status => exact inv.attempted url untouched
    · rw [failed] at success
      cases success
  · have after := Copy.decide_some decided
    have behind := after.behind
    simp only [Copy.attempt_changes] at behind
    refine ⟨onward_setCopy behind (by simpa using after.same) fun inv untouched => ?_,
      fun success => ?_⟩
    · rw [after.attempted] at untouched
      cases request with
      | publishListing => cases untouched
      | updateListing status =>
        have absent := inv.attempted url untouched
        simp only [Copy.attempt, Copy.decide, absent, reduceCtorEq] at decided
    · rw [reports success, at_]
      refine ⟨by simp [setCopy], fun _ bare => ?_⟩
      simp only [setCopy, Function.update_self]
      rcases after.holds with holds | ⟨closed, publishes, _⟩
      · exact holds
      · simp only [Copy.attempt_status] at closed
        simp [closed, publishes] at bare

theorem onward_upsert {row : PublicationRow} (enabled : runtime.enabled = true)
    (tells : market.Tells url row) :
    Onward runtime market { market with publications := market.publications.set url row } := by
  have later : Later market { market with publications := market.publications.set url row } :=
    ⟨fun _ => le_rfl, fun _ _ => rfl⟩
  refine ⟨later, fun inv => ⟨fun other stored found => ?_, inv.attempted, fun disabled => ?_⟩⟩
  · rw [Dict.get?_set] at found
    split at found
    · next same =>
      cases found
      exact same ▸ tells.later later
    · exact (inv.tells other stored found).later later
  · rw [enabled] at disabled
    cases disabled

def Reads : PublicationQuery → Prop
  | .request _ _ | .upsertPublication _ _ => False
  | _ => True

theorem onward_reads {query : PublicationQuery} {answer : PublicationAnswer query}
    (reads : Reads query) (answered : Answers runtime query market answer left) :
    Onward runtime market left := by
  cases query with
  | requireBinding | openRegistryClient | loadListing | onPublished =>
    cases answered
    exact .refl _
  | turn pending => cases answered.2; exact .refl _
  | loadPublications | listPublicationDivergence => cases answered.1; exact .refl _
  | updateListing status =>
    cases answer with
    | error failure => cases answered; exact .refl _
    | ok value =>
      cases answered
      exact ⟨⟨fun _ => le_rfl, fun _ _ => rfl⟩,
        fun inv => ⟨fun url row found => (inv.tells url row found).later
          ⟨fun _ => le_rfl, fun _ _ => rfl⟩, inv.attempted, inv.disabled⟩⟩
  | request request url => cases reads
  | upsertPublication url row => cases reads

/-! ## What every operation keeps -/

/-- The operation moves the market within what the others rely on, and ends where the
postcondition holds. -/
abbrev Keeping (runtime : PublicationRuntime) {α : Type} (post : α → Market → Prop)
    (operation : Operation α) (market : Market) : Prop :=
  operation.Meets (Onward runtime) (Answers runtime) post market

section Operations

variable {α β : Type} {post : α → Market → Prop} {query : PublicationQuery}
  {next : PublicationAnswer query → Operation α} {request : RegistryRequest}

theorem Keeping.reads (reads : Reads query)
    (behind : ∀ left answer, Onward runtime market left → Keeping runtime post (next answer) left) :
    Keeping runtime post (.ask query next) market := by
  intro later onward answer left answered
  have further := onward_reads reads answered
  exact ⟨further, behind left answer (onward.trans further)⟩

theorem Keeping.done {value : α} : Keeping runtime (fun _ _ => True) (.done value) market :=
  fun _ _ => trivial

theorem Keeping.bind {first : Operation β} {rest : β → Operation α} {holds : β → Market → Prop}
    (keeping : Keeping runtime holds first market)
    (behind : ∀ value left, Onward runtime market left → holds value left →
      Keeping runtime post (rest value) left) :
    Keeping runtime post (first >>= rest) market := by
  refine Process.Meets.bind Onward.refl ?_
  exact Process.Meets.mono keeping Onward.trans behind

theorem Spoken.later {status : ListingStatus} {result : PublishResult}
    (spoken : Spoken status result market) (later : Later market left) :
    Spoken status result left :=
  fun success => (spoken success).later later

def AllSpoken (status : ListingStatus) (results : List PublishResult) (market : Market) : Prop :=
  ∀ result ∈ results, Spoken status result market

theorem gather_keeping {count : ℕ} {pending : List String} {results : List PublishResult}
    (spoken : AllSpoken request.status results market) :
    Keeping runtime (AllSpoken request.status) (gather request count pending results) market := by
  induction count generalizing pending results market with
  | zero => exact fun later onward result among => (spoken result among).later onward.toLater
  | succ count ih =>
    refine .reads trivial fun left url onward => ?_
    intro later further result last answered
    obtain ⟨decided, told⟩ := onward_request answered
    refine ⟨decided, ih fun other among => ?_⟩
    have sofar := (onward.trans further).trans decided
    rcases List.mem_append.mp among with earlier | this
    · exact (spoken other earlier).later sofar.toLater
    · cases List.mem_singleton.mp this
      exact told

theorem fanoutPerRegistry_keeping {urls targets : List String} :
    Keeping runtime (AllSpoken request.status) (fanoutPerRegistry urls request targets) market := by
  have gathers : Keeping runtime (AllSpoken request.status)
      (gather request (targets.filter (· ∈ urls)).length (targets.filter (· ∈ urls)) []) market :=
    gather_keeping fun result among => absurd among List.not_mem_nil
  refine gathers.bind fun results left _ spoken later onward result among => ?_
  obtain ⟨url, _, rfl⟩ := List.mem_map.mp among
  rcases found : results.find? (·.registryUrl = url) with _ | result
  · rw [found]
    exact fun success => Bool.noConfusion success
  · rw [found]
    exact (spoken result (List.mem_of_find?_eq_some found)).later onward.toLater

theorem recordResults_keeping (status : ListingStatus) {results : List PublishResult}
    (enabled : runtime.enabled = true) (spoken : AllSpoken status results market) :
    Keeping runtime (fun _ _ => True)
      (recordResults (PublicationRuntime.successStatus status) results) market := by
  induction results generalizing market with
  | nil => exact .done
  | cons result rest ih =>
    intro later onward answer left answered
    have told := (spoken result List.mem_cons_self).later onward.toLater
    have recorded : Onward runtime later left := by
      cases answer with
      | error failure => cases answered; exact .refl _
      | ok value =>
        cases answered
        refine onward_upsert enabled ?_
        by_cases success : result.success = true
        · simp only [success, if_true]
          cases status with
          | opened => exact told success
          | closed => exact told success
        · simp only [success, Bool.false_eq_true, if_false]
          trivial
    refine ⟨recorded, ih fun other among => ?_⟩
    have sofar := onward.trans recorded
    exact (spoken other (List.mem_cons_of_mem _ among)).later sofar.toLater

end Operations

end Market

namespace PublicationRuntime

open Market

variable {runtime : PublicationRuntime} {market : Market} {α : Type}

/-- The operation keeps what the others rely on, whatever it ends with. -/
abbrev Sound (runtime : PublicationRuntime) (operation : Operation α) (market : Market) : Prop :=
  Keeping runtime (fun _ _ => True) operation market

theorem Sound.bind {β : Type} {first : Operation β} {rest : β → Operation α}
    (sound : Sound runtime first market) (behind : ∀ value left, Sound runtime (rest value) left) :
    Sound runtime (first >>= rest) market :=
  Keeping.bind sound fun value left _ _ => behind value left

theorem Sound.reads {query : PublicationQuery} {next : PublicationAnswer query → Operation α}
    (reads : Reads query) (behind : ∀ left answer, Sound runtime (next answer) left) :
    Sound runtime (.ask query next) market :=
  Keeping.reads reads fun left answer _ => behind left answer

theorem publishListingToRegistries_sound (announces : Bool) (registryUrls : Option (List String)) :
    Sound runtime (runtime.publishListingToRegistries announces registryUrls) market := by
  unfold publishListingToRegistries
  split
  · exact .done
  next enabled =>
  have enabled : runtime.enabled = true := by simpa using enabled
  refine .reads trivial fun left answer => ?_
  cases answer with
  | error failure => exact .done
  | ok value =>
    simp only
    split
    · exact .done
    next targets _ =>
    refine Keeping.bind fanoutPerRegistry_keeping fun results later _ spoken => ?_
    refine Keeping.bind (recordResults_keeping .opened enabled spoken) ?_
    intro _ last _ _
    split
    · split
      · refine Sound.reads trivial fun left answer => ?_
        cases answer <;> exact .done
      · exact .done
    · exact .done

theorem setListingStatusInRegistries_sound {status : ListingStatus}
    {select : List String → Operation (List String)}
    (selects : ∀ urls left, Sound runtime (select urls) left) :
    Sound runtime (runtime.setListingStatusInRegistries status select) market := by
  unfold setListingStatusInRegistries
  split
  · exact .done
  next enabled =>
  have enabled : runtime.enabled = true := by simpa using enabled
  refine .reads trivial fun left answer => ?_
  cases answer with
  | error failure => exact .done
  | ok value =>
    refine (selects _ _).bind fun targets later => ?_
    refine Keeping.bind fanoutPerRegistry_keeping fun results last _ spoken => ?_
    refine Keeping.bind (recordResults_keeping status enabled spoken) fun _ _ _ _ => ?_
    split <;> exact .done

theorem registriesToTarget_sound (urls : List String) :
    Sound runtime (registriesToTarget urls) market := by
  refine .reads trivial fun left answer => ?_
  cases answer <;> exact .done

theorem publish_sound : Sound runtime runtime.publish market := by
  refine .reads trivial fun left answer => ?_
  cases answer with
  | error failure => exact .done
  | ok value =>
    exact (publishListingToRegistries_sound _ _).bind fun _ _ => .done

theorem close_sound : Sound runtime runtime.close market := by
  refine .reads trivial fun left answer => ?_
  cases answer with
  | error failure => exact .done
  | ok value =>
    refine .reads trivial fun later answer => ?_
    cases answer with
    | error failure => exact .done
    | ok value =>
      have sets : Sound runtime
          (runtime.setListingStatusInRegistries .closed registriesToTarget) later :=
        setListingStatusInRegistries_sound fun urls _ => registriesToTarget_sound urls
      exact sets.bind fun _ _ => .done

theorem reopen_sound : Sound runtime runtime.reopen market := by
  refine .reads trivial fun left answer => ?_
  cases answer with
  | error failure => exact .done
  | ok value =>
    refine .reads trivial fun later answer => ?_
    cases answer with
    | error failure => exact .done
    | ok value =>
      refine publish_sound.bind fun published last => ?_
      split
      · exact .done
      · have sets : Sound runtime
            (runtime.setListingStatusInRegistries .opened registriesToTarget) last :=
          setListingStatusInRegistries_sound fun urls _ => registriesToTarget_sound urls
        exact sets.bind fun outcome _ => by cases outcome <;> exact .done
      · exact .done

theorem reconcile_sound (planned : Planned) : Sound runtime (runtime.reconcile planned) market := by
  cases planned with
  | closes => exact close_sound.bind fun _ _ => by split <;> exact .done
  | reopens => exact reopen_sound.bind fun _ _ => by split <;> exact .done

theorem publicationDivergence_sound : Sound runtime runtime.publicationDivergence market := by
  unfold publicationDivergence
  split
  · exact .done
  · exact .reads trivial fun _ _ => .done

theorem convergeOne_sound (divergence : RegistryDivergence) :
    Sound runtime (runtime.convergeOne divergence) market := by
  unfold convergeOne
  simp only
  split
  · exact (setListingStatusInRegistries_sound fun _ _ => .done).bind fun _ _ => .done
  · refine .reads trivial fun left answer => ?_
    split
    · exact .done
    · exact .done
    · refine (publishListingToRegistries_sound _ _).bind fun outcome later => ?_
      cases outcome with
      | published =>
        exact (setListingStatusInRegistries_sound fun _ _ => .done).bind fun _ _ => .done
      | disabled | error => exact .done

theorem convergeEach_sound (divergences : List RegistryDivergence) :
    Sound runtime (runtime.convergeEach divergences) market := by
  induction divergences generalizing market with
  | nil => exact .done
  | cons divergence rest ih => exact (convergeOne_sound divergence).bind fun _ _ => ih

theorem convergeAll_sound (divergences : List RegistryDivergence) :
    Sound runtime (runtime.convergeAll divergences) market := by
  refine (convergeEach_sound divergences).bind fun _ _ => ?_
  exact publicationDivergence_sound.bind fun remaining _ => by cases remaining <;> exact .done

theorem converge_sound (given : Option (List RegistryDivergence)) :
    Sound runtime (runtime.converge given) market := by
  cases given with
  | some divergences => exact convergeAll_sound divergences
  | none =>
    refine publicationDivergence_sound.bind fun read _ => ?_
    cases read with
    | error failure => exact .done
    | ok divergences => exact convergeAll_sound divergences

/-! ## Runs -/

inductive Call
  | publish
  | close
  | reopen
  | reconcile (planned : Planned)
  | converge (given : Option (List RegistryDivergence))
  | publicationDivergence

abbrev Call.Result : Call → Type
  | .publish => Except PublicationError PublishStatus
  | .close => Except PublicationError StatusSet
  | .reopen => Except PublicationError PublishStatus
  | .reconcile _ => Except PublicationError Reconciled
  | .converge _ => Except PublicationError (Option Bool)
  | .publicationDivergence => Except PublicationError (List RegistryDivergence)

def program (runtime : PublicationRuntime) : (call : Call) → Operation call.Result
  | .publish => runtime.publish
  | .close => runtime.close
  | .reopen => runtime.reopen
  | .reconcile planned => runtime.reconcile planned
  | .converge given => runtime.converge given
  | .publicationDivergence => runtime.publicationDivergence

theorem program_sound (call : Call) : Sound runtime (runtime.program call) market := by
  cases call with
  | publish => exact publish_sound
  | close => exact close_sound
  | reopen => exact reopen_sound
  | reconcile planned => exact reconcile_sound planned
  | converge given => exact converge_sound given
  | publicationDivergence => exact publicationDivergence_sound

end PublicationRuntime

abbrev Operations := Pool PublicationQuery PublicationAnswer PublicationRuntime.Call
  PublicationRuntime.Call.Result Market

/-- Calls beside each other, each cancelled or lost anywhere. -/
abbrev PublicationRuntime.Reaches (runtime : PublicationRuntime) : Operations → Operations → Prop :=
  Pool.Reaches (fun _ _ => False) (Market.Answers runtime) runtime.program

namespace Market

variable {runtime : PublicationRuntime} {market : Market} {url : String}

def fresh (listing : ListingStatus) : Market where
  listing := listing
  publications := Table.empty
  copies _ := ⟨none, 0, false⟩

theorem fresh_inv (listing : ListingStatus) : (fresh listing).Inv runtime :=
  ⟨fun _ _ stored => (nomatch stored), fun _ _ => rfl, fun _ _ => rfl⟩

theorem inv_of_reaches {listing : ListingStatus} {pool : Operations}
    (reached : runtime.Reaches (.idle (fresh listing)) pool) : pool.world.Inv runtime := by
  have sound : pool.Sound (Onward runtime) (Answers runtime) (fun _ _ _ => True) ∧
      Onward runtime (fresh listing) pool.world :=
    Pool.sound Onward.refl Onward.trans (fun moved => moved.elim)
      (fun call _ _ => PublicationRuntime.program_sound call) reached
  exact sound.2.inv (fresh_inv listing)

def Wrong (market : Market) (url : String) : Prop :=
  match market.listing with
  | .closed => (market.copies url).status = some .opened
  | .opened => (market.copies url).status = some .closed ∨
      (market.copies url).status = none ∧ (market.copies url).attempted = true

/-- The request that the registry's row records was decided when its copy had the status it has,
and was no publish over a closed copy, or the row says failed; and where there is no row, no
publish was attempted. -/
def Recorded (market : Market) (url : String) : Prop :=
  match market.publications.get? url with
  | none => (market.copies url).attempted = false
  | some row => row.status = .failed ∨
      row.decision.changes = (market.copies url).changes ∧ row.decision.overClosed = false

theorem mem_divergentUrls {urls : List String} :
    url ∈ market.divergentUrls urls ↔
      url ∈ urls ∧ ∃ row, market.publications.get? url = some row ∧
        disagrees market.listing row.status = true := by
  simp only [divergentUrls, sortedRows, List.mem_map, List.mem_filter, List.mem_mergeSort,
    decide_eq_true_eq, Prod.exists, exists_and_right, exists_eq_right, Dict.get?_eq_some,
    Table.mem_rows]
  constructor
  · rintro ⟨row, stored, listed, differs⟩
    exact ⟨listed, row, stored, differs⟩
  · rintro ⟨listed, row, stored, differs⟩
    exact ⟨row, stored, listed, differs⟩

theorem divergent_of_wrong (inv : market.Inv runtime) (recorded : market.Recorded url)
    (wrong : market.Wrong url) :
    ∃ row, market.publications.get? url = some row ∧
      disagrees market.listing row.status = true := by
  unfold Recorded at recorded
  split at recorded
  · have absent := inv.attempted url recorded
    unfold Wrong at wrong
    split at wrong
    · rw [absent] at wrong
      cases wrong
    · rcases wrong with closed | ⟨_, attempted⟩
      · rw [absent] at closed
        cases closed
      · rw [recorded] at attempted
        cases attempted
  · next row stored =>
    refine ⟨row, stored, ?_⟩
    have tells := inv.tells url row stored
    obtain ⟨status, decision⟩ := row
    rcases recorded with rfl | ⟨current, bare⟩
    · cases market.listing <;> rfl
    · cases status with
      | failed => cases market.listing <;> rfl
      | published =>
        have holds := Stands.holds tells current bare
        unfold Wrong at wrong
        split at wrong
        · next closed => simp [disagrees, closed]
        · rw [holds] at wrong
          simp at wrong
      | unpublished =>
        have holds := Stands.holds tells current bare
        unfold Wrong at wrong
        split at wrong
        · rw [holds] at wrong
          cases wrong
        · next opened => simp [disagrees, opened]

end Market

end ComputeMarket.Publication
