import ComputeMarket.Publication.Standing

/-!
# One converge pass

What a pass of `converge` leaves where nothing else runs and every registry answers: the registries
that are reported get what the listing's status implies, and the others hold it already
(`registries_told`). A publish over a copy that is closed is recorded as published, and then no pass
finds it (`published_over_closed`).
-/

namespace ComputeMarket.Publication

theorem nodup_eraseDups {α : Type*} [DecidableEq α] (list : List α) : list.eraseDups.Nodup := by
  match list with
  | [] => simp
  | head :: tail =>
    rw [List.eraseDups_cons, List.nodup_cons]
    refine ⟨fun among => ?_, nodup_eraseDups _⟩
    have kept := List.mem_filter.mp (List.mem_eraseDups.mp among)
    simp at kept
termination_by list.length
decreasing_by exact Nat.lt_succ_of_le (List.length_filter_le _ _)

namespace Market

def Obliges (runtime : PublicationRuntime) (query : PublicationQuery) (market : Market)
    (answer : PublicationAnswer query) (left : Market) : Prop :=
  Answers runtime query market answer left ∧
    match query, answer with
    | .requireBinding, answer => answer = .ok ()
    | .updateListing _, answer => answer = .ok ()
    | .openRegistryClient, answer => answer = .ok ()
    | .turn _, _ => True
    | .request request url, result =>
      ∀ copy, ((market.copies url).attempt request).decide request = some copy →
        left = market.setCopy url copy ∧ result.success = true ∧ result.response = true
    | .loadPublications, answer => ∃ rows, answer = .ok rows
    | .upsertPublication _ _, answer => answer = .ok ()
    | .loadListing, answer => answer = .ok (some ())
    | .listPublicationDivergence, answer => ∃ rows, answer = .ok rows
    | .onPublished, answer => answer = .ok ()

variable {runtime : PublicationRuntime}

theorem exists_obliges (query : PublicationQuery) (market : Market) :
    ∃ answer left, Obliges runtime query market answer left := by
  cases query with
  | requireBinding | openRegistryClient | onPublished => exact ⟨.ok (), market, rfl, rfl⟩
  | loadListing => exact ⟨.ok (some ()), market, rfl, rfl⟩
  | updateListing status => exact ⟨.ok (), _, rfl, rfl⟩
  | upsertPublication url row => exact ⟨.ok (), _, rfl, rfl⟩
  | turn pending =>
    refine ⟨pending.headD "", market, ⟨fun nonempty => ?_, rfl⟩, trivial⟩
    obtain ⟨head, tail, rfl⟩ := List.exists_cons_of_ne_nil nonempty
    exact List.mem_cons_self
  | loadPublications => exact ⟨.ok _, market, ⟨rfl, fun rows same => (Except.ok.inj same).symm⟩, _, rfl⟩
  | listPublicationDivergence =>
    exact ⟨.ok _, market, ⟨rfl, fun rows same => (Except.ok.inj same).symm⟩, _, rfl⟩
  | request request url =>
    rcases decided : ((market.copies url).attempt request).decide request with _ | copy
    · refine ⟨⟨url, false, false, ⟨0, false⟩⟩, _, ⟨rfl, .inl ⟨rfl, rfl⟩⟩, fun copy other => ?_⟩
      rw [decided] at other
      cases other
    · refine ⟨⟨url, true, true, ⟨copy.changes, _⟩⟩, _,
        ⟨rfl, .inr ⟨copy, decided, rfl, fun _ => rfl⟩⟩, fun other same => ?_⟩
      rw [decided] at same
      cases same
      exact ⟨rfl, rfl, rfl⟩

end Market

/-! ## A fan-out -/

def Copy.takes (copy : Copy) (request : RegistryRequest) : Bool :=
  ((copy.attempt request).decide request).isSome

def Copy.requested (copy : Copy) (request : RegistryRequest) : Copy :=
  ((copy.attempt request).decide request).getD (copy.attempt request)

@[simp] theorem Copy.takes_publishListing (copy : Copy) : copy.takes .publishListing = true := by
  rcases held : copy.status with _ | status <;> simp [takes, attempt, decide, held]

theorem Copy.takes_updateListing (copy : Copy) (status : ListingStatus) :
    copy.takes (.updateListing status) = copy.status.isSome := by
  rcases held : copy.status with _ | other <;> simp [takes, attempt, decide, held]

theorem Copy.requested_publishListing (copy : Copy) :
    (copy.requested .publishListing).status = some (copy.status.getD .opened) := by
  rcases held : copy.status with _ | status <;> simp [requested, attempt, decide, held]

theorem Copy.requested_updateListing (copy : Copy) (status : ListingStatus) :
    (copy.requested (.updateListing status)).status = copy.status.map fun _ => status := by
  rcases held : copy.status with _ | other <;> simp [requested, attempt, decide, held]

namespace Market

variable {runtime : PublicationRuntime} {start market left : Market} {request : RegistryRequest}
    {url : String} {targets urls : List String}

structure Sent (start : Market) (request : RegistryRequest) (told : String → Prop)
    (market : Market) : Prop where
  listing : market.listing = start.listing
  publications : market.publications = start.publications
  sent : ∀ url, told url → market.copies url = (start.copies url).requested request
  others : ∀ url, ¬ told url → market.copies url = start.copies url

def Reports (start : Market) (request : RegistryRequest) (result : PublishResult) : Prop :=
  result.success = (start.copies result.registryUrl).takes request ∧
    (result.success = true → result.response = true)

theorem obliges_request {result : PublishResult}
    (obliges : Obliges runtime (.request request url) market result left) :
    left = market.setCopy url ((market.copies url).requested request) ∧
      result.registryUrl = url ∧ Reports market request result := by
  obtain ⟨⟨at_, answered⟩, takes⟩ := obliges
  unfold Reports Copy.takes Copy.requested
  rw [at_]
  rcases decided : ((market.copies url).attempt request).decide request with _ | copy
  · rcases answered with ⟨failed, rfl⟩ | ⟨copy, other, _⟩
    · refine ⟨rfl, rfl, failed, fun success => ?_⟩
      rw [failed] at success
      cases success
    · rw [decided] at other
      cases other
  · obtain ⟨rfl, success, response⟩ := takes copy decided
    exact ⟨rfl, rfl, success, fun _ => response⟩

theorem gather_ends {pending : List String} {results : List PublishResult}
    (distinct : pending.Nodup) (among : ∀ url ∈ pending, url ∈ targets)
    (sent : Sent start request (fun url => url ∈ targets ∧ url ∉ pending) market)
    (reports : ∀ result ∈ results, Reports start request result)
    (answered : ∀ url ∈ targets, url ∉ pending → ∃ result ∈ results, result.registryUrl = url) :
    (gather request pending.length pending results).Ends (Obliges runtime)
      (fun results market => Sent start request (· ∈ targets) market ∧
        (∀ result ∈ results, Reports start request result) ∧
        ∀ url ∈ targets, ∃ result ∈ results, result.registryUrl = url) market := by
  generalize counted : pending.length = count
  induction count generalizing pending results market with
  | zero =>
    have none_left := List.length_eq_zero_iff.mp counted
    subst none_left
    refine ⟨⟨sent.listing, sent.publications, fun url isTarget => ?_, fun url isOther => ?_⟩,
      reports, fun url isTarget => answered url isTarget List.not_mem_nil⟩
    · exact sent.sent url ⟨isTarget, List.not_mem_nil⟩
    · exact sent.others url fun target => isOther target.1
  | succ count ih =>
    rintro url here ⟨⟨turn, rfl⟩, _⟩ result left obliges
    have isPending := turn (List.ne_nil_of_length_eq_add_one counted)
    obtain ⟨rfl, at_, told⟩ := obliges_request obliges
    have untouched := sent.others url fun both => both.2 isPending
    refine ih (distinct.erase _) (fun other within => among other (List.mem_of_mem_erase within))
      ⟨sent.listing, sent.publications, fun other target => ?_, fun other isOther => ?_⟩ ?_ ?_ ?_
    · by_cases same : other = url
      · subst same
        simp only [setCopy, Function.update_self, untouched]
      · simp only [setCopy, Function.update_of_ne same]
        refine sent.sent other ⟨target.1, fun waits => target.2 ?_⟩
        exact (List.mem_erase_of_ne same).mpr waits
    · have other_ne : other ≠ url := by
        rintro rfl
        exact isOther ⟨among _ isPending, distinct.not_mem_erase⟩
      simp only [setCopy, Function.update_of_ne other_ne]
      refine sent.others other fun both => isOther ⟨both.1, fun waits => ?_⟩
      exact both.2 (List.mem_of_mem_erase waits)
    · intro other within
      rcases List.mem_append.mp within with earlier | this
      · exact reports other earlier
      · cases List.mem_singleton.mp this
        unfold Reports at told ⊢
        rwa [at_, untouched, ← at_] at told
    · intro other isTarget decided
      by_cases same : other = url
      · exact ⟨result, List.mem_append_right _ List.mem_cons_self, at_.trans same.symm⟩
      · obtain ⟨earlier, within, its⟩ := answered other isTarget fun waits =>
          decided ((List.mem_erase_of_ne same).mpr waits)
        exact ⟨earlier, List.mem_append_left _ within, its⟩
    · rw [List.length_erase_of_mem isPending, counted]
      rfl

theorem fanoutPerRegistry_ends (distinct : targets.Nodup)
    (configured : ∀ url ∈ targets, url ∈ urls) :
    (fanoutPerRegistry urls request targets).Ends (Obliges runtime)
      (fun results market => Sent start request (· ∈ targets) market ∧
        results.map PublishResult.registryUrl = targets ∧
        ∀ result ∈ results, Reports start request result) start := by
  have all : targets.filter (· ∈ urls) = targets :=
    List.filter_eq_self.mpr fun url isTarget => decide_eq_true (configured url isTarget)
  unfold fanoutPerRegistry
  simp only [all]
  refine Process.Ends.bind ?_
  have gathered : (gather request targets.length targets []).Ends (Obliges runtime)
      (fun results market => Sent start request (· ∈ targets) market ∧
        (∀ result ∈ results, Reports start request result) ∧
        ∀ url ∈ targets, ∃ result ∈ results, result.registryUrl = url) start :=
    gather_ends distinct (fun url => id)
      ⟨rfl, rfl, fun url both => absurd both.1 both.2, fun _ _ => rfl⟩
      (fun result among => absurd among List.not_mem_nil)
      (fun url here there => absurd here there)
  refine gathered.mono fun results market ⟨sent, reports, answered⟩ => ?_
  have found : ∀ url ∈ targets, ∃ result, results.find? (·.registryUrl = url) = some result ∧
      result.registryUrl = url ∧ Reports start request result := by
    intro url isTarget
    obtain ⟨result, among, at_⟩ := answered url isTarget
    rcases search : results.find? (·.registryUrl = url) with _ | first
    · exact absurd at_ (by simpa using List.find?_eq_none.mp search result among)
    · exact ⟨first, search, by simpa using List.find?_some search,
        reports first (List.mem_of_find?_eq_some search)⟩
  refine ⟨sent, ?_, fun result among => ?_⟩
  · rw [List.map_map]
    refine (List.map_congr_left fun url isTarget => ?_).trans (List.map_id _)
    obtain ⟨result, search, at_, _⟩ := found url isTarget
    simp [search, at_]
  · obtain ⟨url, isTarget, rfl⟩ := List.mem_map.mp among
    obtain ⟨result, search, _, told⟩ := found url isTarget
    rwa [search]

structure Written (start : Market) (urls : List String) (recorded : String → PublicationStatus)
    (market : Market) : Prop where
  listing : market.listing = start.listing
  copies : market.copies = start.copies
  written : ∀ url ∈ urls, (market.publications.get? url).map (·.status) = some (recorded url)
  others : ∀ url ∉ urls, market.publications.get? url = start.publications.get? url

theorem recordResults_ends {successStatus : PublicationStatus} {results : List PublishResult}
    (recorded : String → PublicationStatus)
    (records : ∀ result ∈ results,
      (if result.success then successStatus else .failed) = recorded result.registryUrl) :
    (recordResults successStatus results).Ends (Obliges runtime)
      (fun _ => Written market (results.map PublishResult.registryUrl) recorded) market := by
  induction results generalizing market with
  | nil => exact ⟨rfl, rfl, fun url among => absurd among List.not_mem_nil, fun _ _ => rfl⟩
  | cons result rest ih =>
    rintro answer left ⟨answered, rfl⟩
    cases answered
    refine Process.Ends.mono (ih fun other among => records other (List.mem_cons_of_mem _ among))
      fun _ last written => ?_
    refine ⟨written.listing, written.copies, fun url among => ?_, fun url isOther => ?_⟩
    · by_cases later : url ∈ rest.map PublishResult.registryUrl
      · exact written.written url later
      · have this : url = result.registryUrl := (List.mem_cons.mp among).resolve_right later
        rw [written.others url later, Dict.get?_set, if_pos this, this,
          ← records result List.mem_cons_self]
        rfl
    · simp only [List.map_cons, List.mem_cons, not_or] at isOther
      rw [written.others url isOther.2, Dict.get?_set, if_neg isOther.1]

/-! ## A request to registries that answer -/

structure Settled (start : Market) (request : RegistryRequest) (urls : List String)
    (market : Market) : Prop where
  listing : market.listing = start.listing
  copies : ∀ url ∈ urls, market.copies url = (start.copies url).requested request
  rows : ∀ url ∈ urls, (market.publications.get? url).map (·.status) =
    some (if (start.copies url).takes request then PublicationRuntime.successStatus request.status
      else .failed)
  otherCopies : ∀ url ∉ urls, market.copies url = start.copies url
  otherRows : ∀ url ∉ urls, market.publications.get? url = start.publications.get? url

theorem request_ends (request : RegistryRequest) {α : Type} {post : α → Market → Prop}
    {rest : List PublishResult → Operation α} (distinct : targets.Nodup)
    (configured : ∀ url ∈ targets, url ∈ runtime.registryUrls)
    (behind : ∀ results market, results.map PublishResult.registryUrl = targets →
      (∀ result ∈ results, Reports start request result) → Settled start request targets market →
        (rest results).Ends (Obliges runtime) post market) :
    (do
      let results ← fanoutPerRegistry runtime.registryUrls request targets
      recordResults (PublicationRuntime.successStatus request.status) results
      rest results : Operation α).Ends (Obliges runtime) post start := by
  refine Process.Ends.bind ?_
  refine Process.Ends.mono (fanoutPerRegistry_ends distinct configured) ?_
  rintro results sent ⟨isSent, named, reports⟩
  refine Process.Ends.bind ?_
  have records : ∀ result ∈ results,
      (if result.success then PublicationRuntime.successStatus request.status else .failed) =
        if (start.copies result.registryUrl).takes request then
          PublicationRuntime.successStatus request.status else .failed :=
    fun result among => by rw [(reports result among).1]
  refine Process.Ends.mono (recordResults_ends
    (fun url => if (start.copies url).takes request then
      PublicationRuntime.successStatus request.status else .failed) records) ?_
  intro _ market written
  rw [named] at written
  refine behind results market named reports ⟨written.listing.trans isSent.listing,
    fun url isTarget => ?_, written.written, fun url isOther => ?_, fun url isOther => ?_⟩
  · rw [written.copies, isSent.sent url isTarget]
  · rw [written.copies, isSent.others url isOther]
  · rw [written.others url isOther, isSent.publications]

theorem publishListingToRegistries_ends {named : List String} (enabled : runtime.enabled = true)
    (some_named : named ≠ []) (configured : ∀ url ∈ named, url ∈ runtime.registryUrls) :
    (runtime.publishListingToRegistries false (some named)).Ends (Obliges runtime)
      (fun status market => status = .published ∧ Settled start .publishListing named market)
      start := by
  unfold PublicationRuntime.publishListingToRegistries
  rw [if_neg (by simp [enabled])]
  rintro answer left ⟨rfl, rfl⟩
  have targets : runtime.publishTargets (some named) =
      .ok (runtime.registryUrls.filter (· ∈ named)) :=
    if_neg fun ⟨url, isNamed, unknown⟩ => unknown (configured url isNamed)
  simp only [targets]
  have same : ∀ url, url ∈ (runtime.registryUrls.filter (· ∈ named)).eraseDups ↔ url ∈ named := by
    intro url
    rw [List.mem_eraseDups, List.mem_filter, decide_eq_true_eq]
    exact ⟨And.right, fun isNamed => ⟨configured url isNamed, isNamed⟩⟩
  refine request_ends .publishListing (nodup_eraseDups _) (fun url isTarget => configured url ((same url).mp isTarget))
    fun results market urls reports settled => ?_
  have success : results.any (·.success) = true := by
    obtain ⟨url, rest, rfl⟩ := List.exists_cons_of_ne_nil some_named
    have isTarget := (same url).mpr List.mem_cons_self
    rw [← urls] at isTarget
    obtain ⟨result, among, _⟩ := List.mem_map.mp isTarget
    refine List.any_eq_true.mpr ⟨result, among, ?_⟩
    rw [(reports result among).1, Copy.takes_publishListing]
  rw [if_pos success]
  refine ⟨rfl, settled.listing, fun url isNamed => settled.copies url ((same url).mpr isNamed),
    fun url isNamed => settled.rows url ((same url).mpr isNamed),
    fun url isOther => settled.otherCopies url (mt (same url).mp isOther),
    fun url isOther => settled.otherRows url (mt (same url).mp isOther)⟩

theorem setListingStatusInRegistries_ends {status : ListingStatus} {named : List String}
    (enabled : runtime.enabled = true) (configured : ∀ url ∈ named, url ∈ runtime.registryUrls) :
    (runtime.setListingStatusInRegistries status
      fun urls => .done (urls.filter (· ∈ named))).Ends (Obliges runtime)
      (fun _ => Settled start (.updateListing status) named) start := by
  unfold PublicationRuntime.setListingStatusInRegistries
  rw [if_neg (by simp [enabled])]
  rintro answer left ⟨rfl, rfl⟩
  have same : ∀ url, url ∈ (runtime.registryUrls.filter (· ∈ named)).eraseDups ↔ url ∈ named := by
    intro url
    rw [List.mem_eraseDups, List.mem_filter, decide_eq_true_eq]
    exact ⟨And.right, fun isNamed => ⟨configured url isNamed, isNamed⟩⟩
  simp only [Process.done_bind]
  refine request_ends (.updateListing status) (nodup_eraseDups _)
    (fun url isTarget => configured url ((same url).mp isTarget))
    fun results market urls reports settled => ?_
  have done : Settled left (.updateListing status) named market :=
    ⟨settled.listing, fun url isNamed => settled.copies url ((same url).mpr isNamed),
      fun url isNamed => settled.rows url ((same url).mpr isNamed),
      fun url isOther => settled.otherCopies url (mt (same url).mp isOther),
      fun url isOther => settled.otherRows url (mt (same url).mp isOther)⟩
  split <;> exact done

/-! ## The pass -/

/-- Every configured registry that holds the listing has its status, and where a listing that is
closed had diverged only at registries that hold it, none diverges. -/
structure Aligned (runtime : PublicationRuntime) (start market : Market) : Prop where
  listing : market.listing = start.listing
  copies : ∀ url ∈ runtime.registryUrls, (market.copies url).status = none ∨
    (market.copies url).status = some market.listing
  divergences : (start.listing = .closed → ∀ url ∈ start.divergentUrls runtime.registryUrls,
    (start.copies url).status ≠ none) → market.divergences runtime.registryUrls = []

theorem status_of_unreported (told : ∀ url ∈ urls, start.Wrong url → url ∈ start.divergentUrls urls)
    (configured : url ∈ urls) (unreported : url ∉ start.divergentUrls urls) :
    (start.copies url).status = none ∨ (start.copies url).status = some start.listing := by
  have right := mt (told url configured) unreported
  unfold Wrong at right
  rcases held : (start.copies url).status with _ | status
  · exact .inl rfl
  · rcases listing : start.listing with _ | _ <;> cases status <;> simp_all

theorem divergences_eq_nil (listing : market.listing = start.listing)
    (agrees : ∀ url ∈ start.divergentUrls urls, ∀ row, market.publications.get? url = some row →
      disagrees start.listing row.status = false) (others : ∀ url ∉ start.divergentUrls urls,
      market.publications.get? url = start.publications.get? url) :
    market.divergences urls = [] := by
  have none_left : market.divergentUrls urls = [] := by
    refine List.eq_nil_iff_forall_not_mem.mpr fun url among => ?_
    obtain ⟨configured, row, stored, differs⟩ := mem_divergentUrls.mp among
    rw [listing] at differs
    by_cases reported : url ∈ start.divergentUrls urls
    · rw [agrees url reported row stored] at differs
      cases differs
    · rw [others url reported] at stored
      exact reported (mem_divergentUrls.mpr ⟨configured, row, stored, differs⟩)
  exact if_pos none_left

theorem aligned_closed (closed : start.listing = .closed)
    (told : ∀ url ∈ runtime.registryUrls, start.Wrong url →
      url ∈ start.divergentUrls runtime.registryUrls)
    (settled : Settled start (.updateListing .closed)
      (start.divergentUrls runtime.registryUrls) market) : Aligned runtime start market := by
  refine ⟨settled.listing, fun url configured => ?_, fun held => ?_⟩
  · rw [settled.listing]
    by_cases reported : url ∈ start.divergentUrls runtime.registryUrls
    · rw [settled.copies url reported, Copy.requested_updateListing, closed]
      rcases (start.copies url).status with _ | status
      · exact .inl rfl
      · exact .inr rfl
    · rw [settled.otherCopies url reported]
      exact status_of_unreported told configured reported
  · refine divergences_eq_nil settled.listing (fun url reported row stored => ?_) settled.otherRows
    have recorded := settled.rows url reported
    rw [Copy.takes_updateListing, if_pos (Option.isSome_iff_ne_none.mpr (held closed url reported)),
      stored] at recorded
    have unpublished : row.status = .unpublished := Option.some.inj recorded
    rw [closed, unpublished]
    rfl

theorem aligned_opened {middle : Market} (opened : start.listing = .opened)
    (told : ∀ url ∈ runtime.registryUrls, start.Wrong url →
      url ∈ start.divergentUrls runtime.registryUrls)
    (published : Settled start .publishListing (start.divergentUrls runtime.registryUrls) middle)
    (settled : Settled middle (.updateListing .opened)
      (start.divergentUrls runtime.registryUrls) market) : Aligned runtime start market := by
  have listing := settled.listing.trans published.listing
  have held : ∀ url ∈ start.divergentUrls runtime.registryUrls,
      ∃ status, (middle.copies url).status = some status := by
    intro url reported
    exact ⟨_, by rw [published.copies url reported, Copy.requested_publishListing]⟩
  refine ⟨listing, fun url configured => ?_, fun _ => ?_⟩
  · rw [listing]
    by_cases reported : url ∈ start.divergentUrls runtime.registryUrls
    · obtain ⟨status, there⟩ := held url reported
      rw [settled.copies url reported, Copy.requested_updateListing, there, opened]
      exact .inr rfl
    · rw [settled.otherCopies url reported, published.otherCopies url reported]
      exact status_of_unreported told configured reported
  · refine divergences_eq_nil listing (fun url reported row stored => ?_) fun url unreported => ?_
    · obtain ⟨status, there⟩ := held url reported
      have recorded := settled.rows url reported
      rw [Copy.takes_updateListing, there, if_pos (Option.isSome_some), stored] at recorded
      have published : row.status = .published := Option.some.inj recorded
      rw [opened, published]
      rfl
    · rw [settled.otherRows url unreported, published.otherRows url unreported]

theorem convergeOne_ends (enabled : runtime.enabled = true)
    (told : ∀ url ∈ runtime.registryUrls, start.Wrong url →
      url ∈ start.divergentUrls runtime.registryUrls)
    (diverges : start.divergentUrls runtime.registryUrls ≠ []) :
    (runtime.convergeOne ⟨start.listing, start.divergentUrls runtime.registryUrls⟩).Ends
      (Obliges runtime) (fun _ => Aligned runtime start) start := by
  have configured : ∀ url ∈ start.divergentUrls runtime.registryUrls,
      url ∈ runtime.registryUrls := fun url among => (mem_divergentUrls.mp among).1
  unfold PublicationRuntime.convergeOne
  rcases listing : start.listing with _ | _
  · rintro answer left ⟨rfl, rfl⟩
    refine Process.Ends.bind ?_
    refine Process.Ends.mono (publishListingToRegistries_ends enabled diverges configured) ?_
    rintro status middle ⟨rfl, published⟩
    refine Process.Ends.bind ?_
    refine Process.Ends.mono (setListingStatusInRegistries_ends enabled configured) ?_
    exact fun _ market settled => aligned_opened listing told published settled
  · refine Process.Ends.bind ?_
    refine Process.Ends.mono (setListingStatusInRegistries_ends enabled configured) ?_
    exact fun _ market settled => aligned_closed listing told settled

theorem publicationDivergence_ends {α : Type} {post : α → Market → Prop}
    {rest : Except PublicationError (List RegistryDivergence) → Operation α}
    (behind : (rest (.ok (if runtime.enabled = false then []
      else market.divergences runtime.registryUrls))).Ends (Obliges runtime) post market) :
    (runtime.publicationDivergence >>= rest).Ends (Obliges runtime) post market := by
  unfold PublicationRuntime.publicationDivergence
  split
  · next disabled =>
    rw [if_pos disabled] at behind
    exact behind
  next enabled =>
  rw [if_neg enabled] at behind
  rintro answer left ⟨⟨rfl, reads⟩, rows, rfl⟩
  rw [reads rows rfl]
  exact behind

theorem converge_ends (inv : market.Inv runtime)
    (told : ∀ url ∈ runtime.registryUrls, market.Wrong url →
      url ∈ market.divergentUrls runtime.registryUrls) :
    (runtime.converge none).Ends (Obliges runtime) (fun _ => Aligned runtime market) market := by
  have none_diverges : market.divergentUrls runtime.registryUrls = [] →
      Aligned runtime market market := by
    intro empty
    have unreported : ∀ url, url ∉ market.divergentUrls runtime.registryUrls :=
      fun url => empty ▸ List.not_mem_nil
    exact ⟨rfl, fun url configured => status_of_unreported told configured (unreported url),
      fun _ => if_pos empty⟩
  refine publicationDivergence_ends ?_
  simp only
  refine Process.Ends.bind ?_
  by_cases enabled : runtime.enabled = false
  · have empty : market.divergentUrls runtime.registryUrls = [] := by
      refine List.eq_nil_iff_forall_not_mem.mpr fun url among => ?_
      obtain ⟨_, row, stored, _⟩ := mem_divergentUrls.mp among
      rw [inv.disabled enabled url] at stored
      cases stored
    rw [if_pos enabled]
    exact publicationDivergence_ends (none_diverges empty)
  · rw [if_neg enabled]
    by_cases empty : market.divergentUrls runtime.registryUrls = []
    · have nothing : market.divergences runtime.registryUrls = [] := if_pos empty
      rw [nothing]
      exact publicationDivergence_ends (none_diverges empty)
    · have one : market.divergences runtime.registryUrls =
          [⟨market.listing, market.divergentUrls runtime.registryUrls⟩] := if_neg empty
      rw [one]
      refine Process.Ends.bind ?_
      refine Process.Ends.mono (convergeOne_ends (by simpa using enabled) told empty) ?_
      exact fun _ last aligned => publicationDivergence_ends aligned

end Market

open Market

/-- In every run of operations beside each other, cancelled or lost anywhere, a configured registry
whose row records the request that its copy stands by is reported where its copy has another status
than the listing. Where that is so of every configured registry, a pass of `converge` that every
registry answers can run, and leaves each that holds the listing at the listing's status, and no
divergence, unless a closed listing had diverged at a registry that does not hold it. -/
theorem registries_told {runtime : PublicationRuntime} {listing : ListingStatus} {pool : Operations}
    (reached : runtime.Reaches (.idle (fresh listing)) pool) :
    (∀ url ∈ runtime.registryUrls, pool.world.Recorded url → pool.world.Wrong url →
      ∀ answer last, runtime.publicationDivergence.Runs (Answers runtime) pool.world (.ok answer)
          last → ∃ divergence ∈ answer, url ∈ divergence.registryUrls) ∧
    ((∀ url ∈ runtime.registryUrls, pool.world.Recorded url) →
      (∃ value last, (runtime.converge none).Runs (Obliges runtime) pool.world value last) ∧
      ∀ value last, (runtime.converge none).Runs (Obliges runtime) pool.world value last →
        Aligned runtime pool.world last) := by
  have inv := inv_of_reaches reached
  have reported : ∀ url ∈ runtime.registryUrls, pool.world.Recorded url → pool.world.Wrong url →
      url ∈ pool.world.divergentUrls runtime.registryUrls := by
    intro url configured recorded wrong
    obtain ⟨row, stored, differs⟩ := divergent_of_wrong inv recorded wrong
    exact mem_divergentUrls.mpr ⟨configured, row, stored, differs⟩
  refine ⟨fun url configured recorded wrong answer last runs => ?_, fun recorded => ⟨?_, ?_⟩⟩
  · have among := reported url configured recorded wrong
    have diverges : pool.world.divergences runtime.registryUrls =
        [⟨pool.world.listing, pool.world.divergentUrls runtime.registryUrls⟩] :=
      if_neg (List.ne_nil_of_mem among)
    unfold PublicationRuntime.publicationDivergence at runs
    split at runs
    · next disabled =>
      obtain ⟨row, stored, _⟩ := divergent_of_wrong inv recorded wrong
      rw [inv.disabled disabled url] at stored
      cases stored
    · cases runs with
      | ask reply rest =>
        cases rest
        rw [reply.2 answer rfl, diverges]
        exact ⟨_, List.mem_cons_self, among⟩
  · exact Process.exists_runs exists_obliges _ _
  · intro value last runs
    exact runs.ends (converge_ends inv fun url configured =>
      reported url configured (recorded url configured))

/-! ## A publish over a closed copy -/

namespace OneRegistry

variable {market : Market}

def runtime : PublicationRuntime := ⟨true, ["registry"], false⟩

def published (market : Market) (copy : Copy) (overClosed : Bool) : Market :=
  { market.setCopy "registry" copy with
    publications := market.publications.set "registry" ⟨.published, ⟨copy.changes, overClosed⟩⟩ }

theorem publishes {copy : Copy} {overClosed : Bool}
    (decided : ((market.copies "registry").attempt .publishListing).decide .publishListing =
      some copy) (held : overClosed = decide ((market.copies "registry").status = some .closed)) :
    (runtime.publishListingToRegistries false none).Runs (Answers runtime) market .published
      (published market copy overClosed) := by
  have reply : Answers runtime (.request .publishListing "registry") market
      ⟨"registry", true, true, ⟨copy.changes, overClosed⟩⟩ (market.setCopy "registry" copy) :=
    ⟨rfl, .inr ⟨copy, decided, rfl, fun _ => by simp [held]⟩⟩
  have opens : Answers runtime .openRegistryClient market (.ok ()) market := rfl
  have turn : Answers runtime (.turn ["registry"]) market "registry" market :=
    ⟨fun _ => List.mem_cons_self, rfl⟩
  have records : Answers runtime
      (.upsertPublication "registry" ⟨.published, ⟨copy.changes, overClosed⟩⟩)
      (market.setCopy "registry" copy) (.ok ()) (published market copy overClosed) := rfl
  exact .ask opens (.ask turn (.ask reply (.ask records (.done _ _))))

theorem targets {row : PublicationRow} (stored : market.publications.rows = [("registry", row)])
    (active : row.status ≠ .unpublished) :
    (PublicationRuntime.registriesToTarget ["registry"]).Runs (Answers runtime) market ["registry"]
      market := by
  have loads : Answers runtime .loadPublications market (.ok [("registry", row.status)]) market := by
    refine ⟨rfl, fun rows same => ?_⟩
    rw [← Except.ok.inj same, sortedRows, stored, List.mergeSort_singleton]
    rfl
  refine .ask loads ?_
  simp only [List.filter_cons, active, ne_eq, not_false_eq_true, decide_true, if_true,
    List.filter_nil, List.map_cons, List.map_nil, List.cons_ne_nil, if_false]
  exact .done _ _

theorem sets {left : Market} {status : ListingStatus} {row : PublicationRow} {success : Bool}
    {decision : Decision} (stored : market.publications.rows = [("registry", row)])
    (active : row.status ≠ .unpublished)
    (reply : Answers runtime (.request (.updateListing status) "registry") market
      ⟨"registry", success, success, decision⟩ left) :
    (runtime.setListingStatusInRegistries status PublicationRuntime.registriesToTarget).Runs
      (Answers runtime) market (if success then .set else .error)
      { left with
        publications := left.publications.set "registry"
          ⟨if success then PublicationRuntime.successStatus status else .failed, decision⟩ } := by
  have opens : Answers runtime .openRegistryClient market (.ok ()) market := rfl
  have turn : Answers runtime (.turn ["registry"]) market "registry" market :=
    ⟨fun _ => List.mem_cons_self, rfl⟩
  refine .ask opens ((targets stored active).bind (.ask turn (.ask reply ?_)))
  have records : ∀ row, Answers runtime (.upsertPublication "registry" row) left (.ok ())
      { left with publications := left.publications.set "registry" row } := fun _ => rfl
  refine .ask (records _) ?_
  cases success <;> exact .done _ _

def listed : Market := published (fresh .opened) ⟨some .opened, 1, true⟩ false

def closed (success : Bool) : Market :=
  { listed.setCopy "registry" (if success then ⟨some .closed, 2, true⟩ else ⟨some .opened, 1, true⟩)
      with
    listing := .closed
    publications := listed.publications.set "registry"
      (if success then ⟨.unpublished, ⟨2, false⟩⟩ else ⟨.failed, ⟨0, false⟩⟩) }

def reopened : Market :=
  { (published { closed true with listing := .opened } ⟨some .closed, 2, true⟩ true).setCopy
      "registry" ⟨some .closed, 2, true⟩ with
    publications := (closed true).publications.set "registry" ⟨.failed, ⟨0, false⟩⟩ }

theorem binding (market : Market) : Answers runtime .requireBinding market (.ok ()) market := rfl

theorem publish_runs {copy : Copy} {overClosed : Bool}
    (decided : ((market.copies "registry").attempt .publishListing).decide .publishListing =
      some copy) (held : overClosed = decide ((market.copies "registry").status = some .closed)) :
    runtime.publish.Runs (Answers runtime) market (.ok .published)
      (published market copy overClosed) :=
  .ask (binding market) ((publishes decided held).bind (.done _ _))

theorem close_runs (success : Bool) :
    runtime.close.Runs (Answers runtime) listed (.ok (if success then .set else .error))
      (closed success) := by
  have locally_closed : Answers runtime (.updateListing .closed) listed (.ok ())
      { listed with listing := .closed } := rfl
  refine .ask (binding listed) (.ask locally_closed ?_)
  cases success with
  | false => exact (sets rfl (by decide) ⟨rfl, .inl ⟨rfl, rfl⟩⟩).bind (.done _ _)
  | true =>
    exact (sets rfl (by decide) ⟨rfl, .inr ⟨_, rfl, rfl, fun _ => rfl⟩⟩).bind (.done _ _)

theorem reopen_runs :
    runtime.reopen.Runs (Answers runtime) (closed true) (.ok .error) reopened := by
  have locally_open : Answers runtime (.updateListing .opened) (closed true) (.ok ())
      { closed true with listing := .opened } := rfl
  have lost : Answers runtime (.request (.updateListing .opened) "registry")
      (published { closed true with listing := .opened } ⟨some .closed, 2, true⟩ true)
      ⟨"registry", false, false, ⟨0, false⟩⟩ _ := ⟨rfl, .inl ⟨rfl, rfl⟩⟩
  refine .ask (binding _) (.ask locally_open ((publish_runs rfl rfl).bind ?_))
  have sent : (runtime.setListingStatusInRegistries .opened
      PublicationRuntime.registriesToTarget).Runs (Answers runtime) _ .error reopened :=
    sets rfl (by decide) lost
  exact sent.bind (.done _ _)

theorem reaches_closed (success : Bool) :
    ∃ ended, runtime.Reaches (.idle (fresh .opened)) ⟨closed success, [], ended⟩ := by
  have publishes : (runtime.program .publish).Runs (Answers runtime) (fresh .opened)
      (.ok .published) listed := publish_runs rfl rfl
  have closes : (runtime.program .close).Runs (Answers runtime) listed _ (closed success) :=
    close_runs success
  exact ⟨_, (Pool.reaches_of_runs publishes).trans (Pool.reaches_of_runs closes)⟩

end OneRegistry

open OneRegistry in
/-- A listing is published, closed and reopened, whereby the request to open it at the registry is
lost, and published again: it is open, its copy closed, and no divergence is reported. -/
theorem published_over_closed :
    ∃ pool : Operations, runtime.Reaches (.idle (fresh .opened)) pool ∧ pool.running = [] ∧
      "registry" ∈ runtime.registryUrls ∧ pool.world.listing = .opened ∧
      (pool.world.copies "registry").status = some .closed ∧ pool.world.Wrong "registry" ∧
      ∀ answer last, runtime.publicationDivergence.Runs (Answers runtime) pool.world (.ok answer)
        last → answer = [] := by
  obtain ⟨ended, reached⟩ := reaches_closed true
  have reopens : (runtime.program .reopen).Runs (Answers runtime) (closed true) (.ok .error)
      reopened := reopen_runs
  have publishes : (runtime.program .publish).Runs (Answers runtime) reopened (.ok .published)
      (published reopened ⟨some .closed, 2, true⟩ true) := publish_runs rfl rfl
  refine ⟨_, (reached.trans (Pool.reaches_of_runs reopens)).trans (Pool.reaches_of_runs publishes),
    rfl, List.mem_cons_self, rfl, rfl, .inl rfl, fun answer last runs => ?_⟩
  cases runs with
  | ask reply rest =>
    cases rest
    rw [reply.2 answer rfl]
    refine if_pos (List.eq_nil_iff_forall_not_mem.mpr fun url among => ?_)
    obtain ⟨configured, row, stored, differs⟩ := mem_divergentUrls.mp among
    cases List.mem_singleton.mp configured
    cases stored
    cases differs

open OneRegistry in
/-- The request to close a listing at the registry is lost, and it is reported. -/
theorem registries_told_missed :
    ∃ divergence ∈ (closed false).divergences runtime.registryUrls,
      "registry" ∈ divergence.registryUrls := by
  obtain ⟨ended, reached⟩ := reaches_closed false
  have reads : runtime.publicationDivergence.Runs (Answers runtime) (closed false)
      (.ok ((closed false).divergences runtime.registryUrls)) (closed false) :=
    .ask ⟨rfl, fun rows same => (Except.ok.inj same).symm⟩ (.done _ _)
  exact (registries_told reached).1 "registry" List.mem_cons_self (.inl rfl) rfl _ _ reads

end ComputeMarket.Publication
