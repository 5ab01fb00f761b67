import ComputeMarket.Library.Lane
import ComputeMarket.Library.Table

/-!
# Publication at the registries

`PublicationRuntime` of `publication.py` and the helpers of `registry_publication.py` for one
listing: what they ask of the storefront's tables and of the registries, and how those answer. The
requests of a fan-out are decided in any order, and any number of operations run beside each other.
-/

namespace ComputeMarket.Publication

inductive ListingStatus
  | opened
  | closed
  deriving DecidableEq

/-- `publications.status`. -/
inductive PublicationStatus
  | published
  | unpublished
  | failed
  deriving DecidableEq

/-- The request a result is of, as its registry decided it: how often the copy there had changed
its status by then, and whether it was a publish over a copy that was closed. -/
structure Decision where
  changes : ℕ
  overClosed : Bool

/-- A row of `publications`, with the decision that it records. -/
structure PublicationRow where
  status : PublicationStatus
  decision : Decision

/-- What `_registries_to_target` and the divergence query read of a listing's rows. -/
abbrev Publications := Dict String PublicationRow

/-- `PublishResult`, without its texts and payload. -/
structure PublishResult where
  registryUrl : String
  success : Bool
  response : Bool
  decision : Decision

/-- A listing's divergence of `RegistryDivergence`. -/
structure RegistryDivergence where
  listingStatus : ListingStatus
  registryUrls : List String

inductive RegistryRequest
  | publishListing
  | updateListing (status : ListingStatus)
  deriving DecidableEq

inductive PublicationError
  | capacityBinding
  | sellerClosed
  | raised (text : String)

inductive PublicationQuery
  /-- `_require_persisted_binding`, and `validate_candidate`. -/
  | requireBinding
  /-- `repository.update_listing`. -/
  | updateListing (status : ListingStatus)
  /-- `_open_registry_client`, and what else precedes the requests: the storefront's URL is the
  listing's, and the requests can be made. -/
  | openRegistryClient
  /-- Which of the pending requests is decided next. -/
  | turn (pending : List String)
  | request (request : RegistryRequest) (url : String)
  | loadPublications
  | upsertPublication (url : String) (row : PublicationRow)
  | loadListing
  | listPublicationDivergence
  | onPublished

abbrev PublicationAnswer : PublicationQuery → Type
  | .requireBinding => Except PublicationError Unit
  | .updateListing _ => Except PublicationError Unit
  | .openRegistryClient => Except PublicationError Unit
  | .turn _ => String
  | .request _ _ => PublishResult
  | .loadPublications => Except PublicationError (List (String × PublicationStatus))
  | .upsertPublication _ _ => Except PublicationError Unit
  | .loadListing => Except PublicationError (Option Unit)
  | .listPublicationDivergence => Except PublicationError (List RegistryDivergence)
  | .onPublished => Except PublicationError Unit

abbrev Operation := Process PublicationQuery PublicationAnswer

/-! ## The helpers -/

/-- The requests that are left of a fan-out are decided, and their results gathered. -/
def gather (request : RegistryRequest) :
    ℕ → List String → List PublishResult → Operation (List PublishResult)
  | 0, _, results => .done results
  | count + 1, pending, results =>
    .ask (.turn pending) fun url =>
    .ask (.request request url) fun result =>
      gather request count (pending.erase url) (results ++ [result])

def notConfigured (url : String) : PublishResult := ⟨url, false, false, ⟨0, false⟩⟩

def fanoutPerRegistry (urls : List String) (request : RegistryRequest) (targets : List String) :
    Operation (List PublishResult) := do
  let configured := targets.filter (· ∈ urls)
  let results ← gather request configured.length configured []
  .done <| targets.map fun url =>
    (results.find? (·.registryUrl = url)).getD (notConfigured url)

/-- `_record_results`; what a recording raises is only logged. -/
def recordResults (successStatus : PublicationStatus) : List PublishResult → Operation Unit
  | [] => .done ()
  | result :: rest =>
    .ask (.upsertPublication result.registryUrl
      ⟨if result.success then successStatus else .failed, result.decision⟩) fun _ =>
    recordResults successStatus rest

/-- The status of what `publish_listing_to_registries` returns. -/
inductive PublishStatus
  | disabled
  | published
  | error

/-- The status of what `_set_listing_status_in_registries` returns. -/
inductive StatusSet
  | skipped
  | set
  | error

/-- `PublicationRuntime`, of one listing. -/
structure PublicationRuntime where
  enabled : Bool
  registryUrls : List String
  /-- A hook `on_published` was given. -/
  announces : Bool

namespace PublicationRuntime

variable (runtime : PublicationRuntime)

def publishTargets : Option (List String) → Except PublicationError (List String)
  | none => .ok runtime.registryUrls
  | some named =>
    if ∃ url ∈ named, url ∉ runtime.registryUrls then
      .error (.raised "publication targets unconfigured registries")
    else .ok (runtime.registryUrls.filter (· ∈ named))

def publishListingToRegistries (announces : Bool) (registryUrls : Option (List String)) :
    Operation PublishStatus :=
  if runtime.enabled = false then .done .disabled
  else
    .ask .openRegistryClient fun
      | .error _ => .done .error
      | .ok () =>
        match runtime.publishTargets registryUrls with
        | .error _ => .done .error
        | .ok targets => do
            let results ← fanoutPerRegistry runtime.registryUrls .publishListing
              targets.eraseDups
            recordResults .published results
            if results.any (·.success) then
              if announces then
                .ask .onPublished fun
                  | .error _ => .done .error
                  | .ok () => .done .published
              else .done .published
            else .done .error

def successStatus : ListingStatus → PublicationStatus
  | .opened => .published
  | .closed => .unpublished

def setListingStatusInRegistries (status : ListingStatus)
    (select : List String → Operation (List String)) : Operation StatusSet :=
  if runtime.enabled = false then .done .skipped
  else
    .ask .openRegistryClient fun
      | .error _ => .done .error
      | .ok () => do
          let targets ← select runtime.registryUrls
          let results ← fanoutPerRegistry runtime.registryUrls (.updateListing status)
            targets.eraseDups
          recordResults (successStatus status) results
          if results.any fun result => result.success && result.response then .done .set
          else .done .error

def registriesToTarget (fallbackUrls : List String) : Operation (List String) :=
  .ask .loadPublications fun
    | .error _ => .done fallbackUrls
    | .ok rows =>
      let active := (rows.filter (·.2 ≠ .unpublished)).map Prod.fst
      .done (if active = [] then fallbackUrls else active)

/-! ## The operations -/

def publish : Operation (Except PublicationError PublishStatus) :=
  .ask .requireBinding fun
    | .error failure => .done (.error failure)
    | .ok () => do
        let status ← runtime.publishListingToRegistries runtime.announces none
        .done (.ok status)

def close : Operation (Except PublicationError StatusSet) :=
  .ask .requireBinding fun
    | .error failure => .done (.error failure)
    | .ok () =>
      .ask (.updateListing .closed) fun
        | .error failure => .done (.error failure)
        | .ok () => do
            let status ← runtime.setListingStatusInRegistries .closed registriesToTarget
            .done (.ok status)

def reopen : Operation (Except PublicationError PublishStatus) :=
  .ask .requireBinding fun
    | .error failure => .done (.error failure)
    | .ok () =>
      .ask (.updateListing .opened) fun
        | .error failure => .done (.error failure)
        | .ok () => do
            match ← runtime.publish with
            | .error failure => .done (.error failure)
            | .ok .published => do
                match ← runtime.setListingStatusInRegistries .opened registriesToTarget with
                | .error => .done (.ok .error)
                | .skipped | .set => .done (.ok .published)
            | .ok status => .done (.ok status)

/-- What a `ReconciliationPlan` has for the listing. -/
inductive Planned
  | closes
  | reopens

/-- Under what `reconcile` reports the listing. -/
inductive Reconciled
  | closed
  | failedClose
  | reopened
  | sellerClosed
  | unreported

/-- `reconcile`, as far as its plan names the listing. -/
def reconcile : Planned → Operation (Except PublicationError Reconciled)
  | .closes => do
      match ← runtime.close with
      | .error .capacityBinding => .done (.error .capacityBinding)
      | .error _ => .done (.ok .failedClose)
      | .ok .error => .done (.ok .unreported)
      | .ok _ => .done (.ok .closed)
  | .reopens => do
      match ← runtime.reopen with
      | .error .sellerClosed => .done (.ok .sellerClosed)
      | .error failure => .done (.error failure)
      | .ok .error => .done (.ok .unreported)
      | .ok _ => .done (.ok .reopened)

def publicationDivergence : Operation (Except PublicationError (List RegistryDivergence)) :=
  if runtime.enabled = false then .done (.ok [])
  else .ask .listPublicationDivergence .done

/-- `_converge_one`; what it raises `converge` only logs. -/
def convergeOne (divergence : RegistryDivergence) : Operation Unit :=
  let diverged urls := .done (urls.filter (· ∈ divergence.registryUrls))
  match divergence.listingStatus with
  | .closed => do
      let _ ← runtime.setListingStatusInRegistries .closed diverged
      .done ()
  | .opened =>
    .ask .loadListing fun
      | .error _ | .ok none => .done ()
      | .ok (some ()) => do
          match ← runtime.publishListingToRegistries false (some divergence.registryUrls) with
          | .published => do
              let _ ← runtime.setListingStatusInRegistries .opened diverged
              .done ()
          | .disabled | .error => .done ()

def convergeEach : List RegistryDivergence → Operation Unit
  | [] => .done ()
  | divergence :: rest => do
      runtime.convergeOne divergence
      convergeEach rest

/-- `converge` of the divergences it has; whether the listing is `repaired`, where it had
diverged. -/
def convergeAll (divergences : List RegistryDivergence) :
    Operation (Except PublicationError (Option Bool)) := do
  runtime.convergeEach divergences
  match ← runtime.publicationDivergence with
  | .error failure => .done (.error failure)
  | .ok remaining =>
    .done (.ok (if divergences = [] then none else some (decide (remaining = []))))

def converge : Option (List RegistryDivergence) →
    Operation (Except PublicationError (Option Bool))
  | some divergences => runtime.convergeAll divergences
  | none => do
      match ← runtime.publicationDivergence with
      | .error failure => .done (.error failure)
      | .ok divergences => runtime.convergeAll divergences

end PublicationRuntime

end ComputeMarket.Publication
