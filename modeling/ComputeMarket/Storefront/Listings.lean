import ComputeMarket.Library.Run
import ComputeMarket.Library.Table

/-!
# Listings and who closed them

The writes of `sqlite_client.py` to the listings table: `update_listing`, which reads the
closure reason and writes in one `BEGIN IMMEDIATE` transaction, `upsert_listing_with_binding`,
which does so too, and `upsert_listing`, whose read of the reason is a statement of its own:
another writer can commit between it and the insert. The two halves of that call are two
events here, and a call whose insert never comes stays among the `upserts`.

A close by the seller outlives every write but the seller's reopen, as long as no update
names a status besides open and closed on such a listing and no upsert inserts over a close
it did not read (`sellerClose_durable`). `closed_by` is set exactly on closed listings
whatever is written (`consistent_after`).
-/

namespace ComputeMarket.Storefront

/-- A row of `listings`; `columns` are its other columns, those without a value left out. -/
structure ListingRow where
  status : String
  closedBy : Option String
  columns : Dict String String

/-- A row of `storefront_listing_bindings`; `source` are its other columns that are compared. -/
structure ListingBinding where
  listingId : String
  offeringMode : String
  source : List String
  lastReconciledAt : String

inductive ListingError
  | value (message : String)
  | sellerClosed (listingId : String)
  | domainBinding (message : String)
  | closureAborted

structure ListingUpsert where
  listingId : String
  status : String
  closedBy : Option String
  columns : Dict String String

/-- The arguments of `update_listing`; a column that is cleared is named without a value. -/
structure ListingUpdate where
  listingId : String
  status : Option String
  closedBy : Option String
  reopenedBy : Option String
  columns : Dict String (Option String)

/-- An `upsert_listing` between its read and its insert; `seen` is what it read. -/
structure PendingUpsert where
  request : ListingUpsert
  seen : Option String
  closedBy : Option String

structure ListingStore where
  listings : Dict String ListingRow
  bindings : Dict String ListingBinding
  upserts : List PendingUpsert

/-- `LISTING_CLOSED_BY_VALUES`. -/
def closedByValues : List String := ["reconciliation", "seller"]

/-! ## The writes -/

/-- A reason as `repr` shows it. -/
def showReason : Option String → String
  | none => "None"
  | some reason => s!"'{reason}'"

def requireConsistentClosure (status : String) (closedBy : Option String) :
    Except ListingError Unit :=
  if status = "closed" then
    if ∃ reason ∈ closedByValues, closedBy = some reason then .ok ()
    else .error (.value
      s!"closing a listing requires closed_by in ['reconciliation', 'seller'], not {showReason closedBy}")
  else if closedBy ≠ none then
    .error (.value s!"a listing with status '{status}' records no closed_by")
  else .ok ()

def ListingStore.storedClosedBy (store : ListingStore) (listingId : String) : Option String :=
  (store.listings.get? listingId).bind ListingRow.closedBy

/-- The triggers `listing_closed_by_consistent_*` and the check on `closed_by`. -/
def ListingRow.Allowed (row : ListingRow) : Prop :=
  (row.status = "closed" ↔ row.closedBy ≠ none) ∧
    ∀ reason, row.closedBy = some reason → reason ∈ closedByValues

instance (row : ListingRow) : Decidable row.Allowed := by
  unfold ListingRow.Allowed
  cases row.closedBy with
  | none => exact inferInstanceAs (Decidable ((_ ↔ _) ∧ _))
  | some reason =>
    exact decidable_of_iff ((row.status = "closed" ↔ some reason ≠ none) ∧ reason ∈ closedByValues)
      (and_congr_right' ⟨fun listed _ same => by cases same; exact listed, fun all => all _ rfl⟩)

def ListingStore.writeRow (store : ListingStore) (listingId : String) (row : ListingRow) :
    Except ListingError ListingStore :=
  if row.Allowed then .ok { store with listings := store.listings.set listingId row }
  else .error .closureAborted

/-- The reading half of `_execute_listing_upsert`: the reason the insert will write. -/
def upsertReason (request : ListingUpsert) (seen : Option String) :
    Except ListingError (Option String) := do
  requireConsistentClosure request.status request.closedBy
  if seen = some "seller" then
    if request.status ≠ "closed" then
      throw (.sellerClosed request.listingId)
    return some "seller"
  return request.closedBy

/-- The writing half of `_execute_listing_upsert`: a conflict keeps `created_at`. -/
def ListingStore.insertListing (store : ListingStore) (request : ListingUpsert)
    (closedBy : Option String) : Except ListingError ListingStore :=
  store.writeRow request.listingId
    { status := request.status
      closedBy := closedBy
      columns :=
        match (store.listings.get? request.listingId).bind fun row => row.columns.get? "created_at" with
        | some created => request.columns.set "created_at" created
        | none => request.columns }

def ListingStore.writeBinding (store : ListingStore) (binding : ListingBinding) :
    Except ListingError ListingStore :=
  match store.bindings.get? binding.listingId with
  | none => .ok { store with bindings := store.bindings.set binding.listingId binding }
  | some stored =>
    if stored.offeringMode = binding.offeringMode ∧ stored.source = binding.source then
      .ok { store with
        bindings := store.bindings.set binding.listingId
          { stored with lastReconciledAt := binding.lastReconciledAt } }
    else .error (.domainBinding
      s!"listing '{binding.listingId}' already has a different immutable domain binding")

/-- `upsert_listing_with_binding`, one transaction: of the binding's listing. `publicMode` is
the mode the listing's resource names. -/
def ListingStore.upsertListingWithBinding (store : ListingStore) (publicMode : String)
    (binding : ListingBinding) (request : ListingUpsert) : Except ListingError ListingStore := do
  if publicMode ≠ binding.offeringMode then
    throw (.domainBinding
      s!"listing_resource.offering_mode must equal the durable offering mode '{binding.offeringMode}'")
  let request := { request with listingId := binding.listingId }
  let closedBy ← upsertReason request (store.storedClosedBy binding.listingId)
  let store ← store.insertListing request closedBy
  store.writeBinding binding

/-- The checks that open `write_listing_update`. -/
def checkListingUpdate (request : ListingUpdate) : Except ListingError Unit := do
  match request.status with
  | some status => requireConsistentClosure status request.closedBy
  | none =>
    if request.closedBy ≠ none then
      throw (.value "closed_by is recorded only together with a close")
  match request.reopenedBy with
  | none => return ()
  | some reopener =>
    if request.status ≠ some "open" then
      throw (.value "reopened_by is recorded only together with a reopen")
    if reopener ∉ closedByValues then
      throw (.value
        s!"reopened_by must be one of ['reconciliation', 'seller'], not '{reopener}'")

/-- The reason `write_listing_update` writes with a status. -/
def updateReason (request : ListingUpdate) (stored : Option String) :
    Except ListingError (Option String) :=
  if (request.status = some "open" ∨ request.status = some "closed") ∧ stored = some "seller" then
    if request.status = some "open" ∧ request.reopenedBy ≠ some "seller" then
      .error (.sellerClosed request.listingId)
    else if request.status = some "closed" then .ok (some "seller")
    else .ok request.closedBy
  else .ok request.closedBy

def patchColumns (columns : Dict String String) (patch : Dict String (Option String)) :
    Dict String String :=
  patch.rows.foldl (fun columns column =>
    match column.2 with
    | some value => columns.set column.1 value
    | none => Dict.ofItems (columns.rows.filter fun item => item.1 ≠ column.1)) columns

/-- `update_listing`, one transaction. Without a row nothing is written. -/
def ListingStore.updateListing (store : ListingStore) (request : ListingUpdate) :
    Except ListingError ListingStore := do
  checkListingUpdate request
  let closedBy ← updateReason request (store.storedClosedBy request.listingId)
  match store.listings.get? request.listingId with
  | none => return store
  | some row =>
    store.writeRow request.listingId
      { status := request.status.getD row.status
        closedBy := if request.status = none then row.closedBy else closedBy
        columns := patchColumns row.columns request.columns }

/-! ## The writers together -/

inductive ListingEvent
  /-- `upsert_listing` up to its insert. -/
  | upsertRead (request : ListingUpsert)
  /-- The insert of the `upsert_listing` at a position among those under way. -/
  | upsertWrite (position : ℕ)
  | upsertWithBinding (publicMode : String) (binding : ListingBinding) (request : ListingUpsert)
  | update (request : ListingUpdate)

namespace ListingStore

/-- What an event leaves; `upsert_listing` ends with its insert whether or not that is refused. -/
def step (store : ListingStore) : ListingEvent → ListingStore
  | .upsertRead request =>
    let seen := store.storedClosedBy request.listingId
    match upsertReason request seen with
    | .ok closedBy =>
      { store with upserts := store.upserts ++ [{ request := request, seen := seen, closedBy := closedBy }] }
    | .error _ => store
  | .upsertWrite position =>
    match store.upserts[position]? with
    | none => store
    | some call =>
      let ended := { store with upserts := store.upserts.eraseIdx position }
      (ended.insertListing call.request call.closedBy).toOption.getD ended
  | .upsertWithBinding publicMode binding request =>
    (store.upsertListingWithBinding publicMode binding request).toOption.getD store
  | .update request => (store.updateListing request).toOption.getD store

/-- `closed_by` is set exactly on the closed listings, to one of the two reasons. -/
def Consistent (store : ListingStore) : Prop :=
  ∀ listingId row, store.listings.get? listingId = some row → row.Allowed

def Heeds (store : ListingStore) : Prop :=
  ∀ call ∈ store.upserts, call.seen = some "seller" →
    call.request.status = "closed" ∧ call.closedBy = some "seller"

def SellerClosed (store : ListingStore) (listingId : String) : Prop :=
  ∃ row, store.listings.get? listingId = some row ∧ row.status = "closed" ∧
    row.closedBy = some "seller"

def Open (store : ListingStore) (listingId : String) : Prop :=
  ∃ row, store.listings.get? listingId = some row ∧ row.status = "open"

end ListingStore

def ListingEvent.Reopens (listingId : String) : ListingEvent → Prop
  | .update request => request.listingId = listingId ∧ request.reopenedBy = some "seller"
  | _ => False

/-- An update names no third status on a listing its seller closed, and an insert over a
seller's close is by a call that read it. -/
def ListingStore.Guarded (store : ListingStore) : ListingEvent → Prop
  | .update request =>
    store.storedClosedBy request.listingId = some "seller" →
      request.status = none ∨ request.status = some "open" ∨ request.status = some "closed"
  | .upsertWrite position =>
    match store.upserts[position]? with
    | none => True
    | some call =>
      store.storedClosedBy call.request.listingId = some "seller" → call.seen = some "seller"
  | _ => True

instance (store : ListingStore) (event : ListingEvent) : Decidable (store.Guarded event) := by
  unfold ListingStore.Guarded
  split
  · infer_instance
  · split <;> infer_instance
  · infer_instance

namespace ListingStore

/-! ## What a write leaves -/

variable {store : ListingStore} {row : ListingRow} {request : ListingUpsert}
    {closedBy : Option String} {binding : ListingBinding}

theorem writeRow_ok {after : ListingStore} {listingId : String}
    (done : store.writeRow listingId row = .ok after) :
    row.Allowed ∧ after = { store with listings := store.listings.set listingId row } := by
  unfold writeRow at done
  obtain ⟨allowed, done⟩ := require_eq_ok.mp done
  cases done
  exact ⟨allowed, rfl⟩

structure Wrote (store after : ListingStore) (listingId : String) (row : ListingRow) : Prop where
  allowed : row.Allowed
  listings : after.listings = store.listings.set listingId row

theorem Wrote.consistent {after : ListingStore} {listingId : String}
    (wrote : store.Wrote after listingId row) (consistent : store.Consistent) :
    after.Consistent := by
  intro other found stored
  rw [wrote.listings, Dict.get?_set] at stored
  split at stored
  · cases stored
    exact wrote.allowed
  · exact consistent other found stored

theorem Wrote.sellerClosed {after : ListingStore} {listingId other : String}
    (wrote : store.Wrote after listingId row) (closed : store.SellerClosed other)
    (same : listingId = other → row.status = "closed" ∧ row.closedBy = some "seller") :
    after.SellerClosed other := by
  obtain ⟨old, stored, oldClosed⟩ := closed
  by_cases here : other = listingId
  · refine ⟨row, ?_, same here.symm⟩
    rw [wrote.listings, Dict.get?_set, if_pos here]
  · refine ⟨old, ?_, oldClosed⟩
    rw [wrote.listings, Dict.get?_set, if_neg here]
    exact stored

theorem storedClosedBy_of_sellerClosed {listingId : String}
    (closed : store.SellerClosed listingId) :
    store.storedClosedBy listingId = some "seller" := by
  obtain ⟨row, stored, -, reason⟩ := closed
  rw [storedClosedBy, stored]
  exact reason

theorem insertListing_wrote {after : ListingStore}
    (done : store.insertListing request closedBy = .ok after) :
    ∃ row, store.Wrote after request.listingId row ∧ row.status = request.status ∧
      row.closedBy = closedBy := by
  obtain ⟨allowed, rfl⟩ := writeRow_ok done
  exact ⟨_, ⟨allowed, rfl⟩, rfl, rfl⟩

theorem upsertReason_seller (done : upsertReason request (some "seller") = .ok closedBy) :
    request.status = "closed" ∧ closedBy = some "seller" := by
  obtain ⟨_, -, done⟩ := bind_eq_ok.mp done
  rw [if_pos rfl] at done
  obtain ⟨status, done⟩ := refuse_eq_ok.mp done
  cases done
  exact ⟨not_not.mp status, rfl⟩

theorem writeBinding_listings {after : ListingStore}
    (done : store.writeBinding binding = .ok after) :
    after.listings = store.listings := by
  unfold writeBinding at done
  split at done
  · cases done
    rfl
  · obtain ⟨-, done⟩ := require_eq_ok.mp done
    cases done
    rfl

theorem writeBinding_upserts {after : ListingStore}
    (done : store.writeBinding binding = .ok after) :
    after.upserts = store.upserts := by
  unfold writeBinding at done
  split at done
  · cases done
    rfl
  · obtain ⟨-, done⟩ := require_eq_ok.mp done
    cases done
    rfl

theorem upsertListingWithBinding_wrote {after : ListingStore} {publicMode : String}
    (done : store.upsertListingWithBinding publicMode binding request = .ok after) :
    after.upserts = store.upserts ∧
      ∃ row, store.Wrote after binding.listingId row ∧
        (store.storedClosedBy binding.listingId = some "seller" →
          row.status = "closed" ∧ row.closedBy = some "seller") := by
  unfold upsertListingWithBinding at done
  obtain ⟨-, done⟩ := refuse_eq_ok.mp done
  obtain ⟨closedBy, reason, done⟩ := bind_eq_ok.mp done
  obtain ⟨between, inserted, bound⟩ := bind_eq_ok.mp done
  obtain ⟨row, wrote, status, closer⟩ := insertListing_wrote inserted
  refine ⟨?_, row, ⟨wrote.allowed, (writeBinding_listings bound).trans wrote.listings⟩, ?_⟩
  · obtain ⟨-, same⟩ := writeRow_ok inserted
    rw [writeBinding_upserts bound, same]
  · intro seller
    rw [seller] at reason
    obtain ⟨closed, bySeller⟩ := upsertReason_seller reason
    exact ⟨status.trans closed, closer.trans bySeller⟩

theorem updateReason_seller {request : ListingUpdate}
    (done : updateReason request (some "seller") = .ok closedBy)
    (named : request.status = none ∨ request.status = some "open" ∨ request.status = some "closed")
    (notReopened : request.reopenedBy ≠ some "seller") :
    request.status = none ∨ (request.status = some "closed" ∧ closedBy = some "seller") := by
  rcases named with none | opened | closed
  · exact .inl none
  · rw [updateReason, if_pos ⟨.inl opened, rfl⟩, if_pos ⟨opened, notReopened⟩] at done
    cases done
  · rw [updateReason, if_pos ⟨.inr closed, rfl⟩, if_neg (by rw [closed]; simp), if_pos closed]
      at done
    cases done
    exact .inr ⟨closed, rfl⟩

theorem updateListing_wrote {after : ListingStore} {request : ListingUpdate}
    (done : store.updateListing request = .ok after) :
    after = store ∨
      ∃ row old closedBy, store.Wrote after request.listingId row ∧
        after.upserts = store.upserts ∧
        store.listings.get? request.listingId = some old ∧
        updateReason request (store.storedClosedBy request.listingId) = .ok closedBy ∧
        row.status = request.status.getD old.status ∧
        row.closedBy = if request.status = none then old.closedBy else closedBy := by
  obtain ⟨_, -, done⟩ := bind_eq_ok.mp done
  obtain ⟨closedBy, reason, done⟩ := bind_eq_ok.mp done
  cases stored : store.listings.get? request.listingId with
  | none =>
    rw [stored] at done
    cases done
    exact .inl rfl
  | some old =>
    rw [stored] at done
    obtain ⟨allowed, rfl⟩ := writeRow_ok done
    exact .inr ⟨_, old, closedBy, ⟨allowed, rfl⟩, rfl, rfl, reason, rfl, rfl⟩

/-! ## One event -/

theorem consistent_step (consistent : store.Consistent) (event : ListingEvent) :
    (store.step event).Consistent := by
  cases event with
  | upsertRead request =>
    unfold step
    simp only
    split
    · exact consistent
    · exact consistent
  | upsertWrite position =>
    unfold step
    simp only
    split
    · exact consistent
    next call _ =>
    cases inserted : insertListing { store with upserts := store.upserts.eraseIdx position }
        call.request call.closedBy with
    | error _ => exact consistent
    | ok after =>
      obtain ⟨row, wrote, -⟩ := insertListing_wrote inserted
      exact wrote.consistent consistent
  | upsertWithBinding publicMode binding request =>
    unfold step
    simp only
    cases inserted : store.upsertListingWithBinding publicMode binding request with
    | error _ => exact consistent
    | ok after =>
      obtain ⟨-, row, wrote, -⟩ := upsertListingWithBinding_wrote inserted
      exact wrote.consistent consistent
  | update request =>
    unfold step
    simp only
    cases updated : store.updateListing request with
    | error _ => exact consistent
    | ok after =>
      rcases updateListing_wrote updated with rfl | ⟨row, _, _, wrote, -⟩
      · exact consistent
      · exact wrote.consistent consistent

theorem heeds_step (heeds : store.Heeds) (event : ListingEvent) :
    (store.step event).Heeds := by
  cases event with
  | upsertRead request =>
    unfold step
    simp only
    split
    · next closedBy reason =>
      intro call among seen
      rcases List.mem_append.mp among with earlier | new
      · exact heeds call earlier seen
      · cases List.mem_singleton.mp new
        rw [show store.storedClosedBy request.listingId = some "seller" from seen] at reason
        exact upsertReason_seller reason
    · exact heeds
  | upsertWrite position =>
    have fewer : Heeds { store with upserts := store.upserts.eraseIdx position } :=
      fun call among => heeds call (List.mem_of_mem_eraseIdx among)
    unfold step
    simp only
    split
    · exact heeds
    next call _ =>
    cases inserted : insertListing { store with upserts := store.upserts.eraseIdx position }
        call.request call.closedBy with
    | error _ => exact fewer
    | ok after =>
      obtain ⟨-, rfl⟩ := writeRow_ok inserted
      exact fewer
  | upsertWithBinding publicMode binding request =>
    unfold step
    simp only
    cases inserted : store.upsertListingWithBinding publicMode binding request with
    | error _ => exact heeds
    | ok after =>
      obtain ⟨upserts, -⟩ := upsertListingWithBinding_wrote inserted
      intro call among
      exact heeds call (upserts ▸ among)
  | update request =>
    unfold step
    simp only
    cases updated : store.updateListing request with
    | error _ => exact heeds
    | ok after =>
      rcases updateListing_wrote updated with rfl | ⟨_, _, _, _, upserts, -⟩
      · exact heeds
      · intro call among
        exact heeds call (upserts ▸ among)

/-- A seller's close outlives every guarded event but the seller's reopen. -/
theorem sellerClosed_step {listingId : String} {event : ListingEvent} (heeds : store.Heeds)
    (guarded : store.Guarded event) (closed : store.SellerClosed listingId)
    (kept : ¬event.Reopens listingId) : (store.step event).SellerClosed listingId := by
  have reason := storedClosedBy_of_sellerClosed closed
  cases event with
  | upsertRead request =>
    unfold step
    simp only
    split
    · exact closed
    · exact closed
  | upsertWrite position =>
    unfold step
    simp only
    split
    · exact closed
    next call pending =>
    cases inserted : insertListing { store with upserts := store.upserts.eraseIdx position }
        call.request call.closedBy with
    | error _ => exact closed
    | ok after =>
      obtain ⟨row, wrote, status, closer⟩ := insertListing_wrote inserted
      refine wrote.sellerClosed closed fun same => ?_
      have seen : call.seen = some "seller" := by
        rw [Guarded, pending] at guarded
        exact guarded (by rw [same]; exact reason)
      obtain ⟨closes, bySeller⟩ := heeds call (List.mem_of_getElem? pending) seen
      exact ⟨status.trans closes, closer.trans bySeller⟩
  | upsertWithBinding publicMode binding request =>
    unfold step
    simp only
    cases inserted : store.upsertListingWithBinding publicMode binding request with
    | error _ => exact closed
    | ok after =>
      obtain ⟨-, row, wrote, bySeller⟩ := upsertListingWithBinding_wrote inserted
      exact wrote.sellerClosed closed fun same => bySeller (by rw [same]; exact reason)
  | update request =>
    unfold step
    simp only
    cases updated : store.updateListing request with
    | error _ => exact closed
    | ok after =>
      rcases updateListing_wrote updated with
        rfl | ⟨row, old, closedBy, wrote, -, stored, updatedReason, status, closer⟩
      · exact closed
      · refine wrote.sellerClosed closed fun same => ?_
        subst same
        obtain ⟨row', stored', oldStatus, oldReason⟩ := closed
        rw [stored] at stored'
        cases stored'
        rw [reason] at updatedReason
        rcases updateReason_seller updatedReason (guarded reason)
          (fun seller => kept ⟨rfl, seller⟩) with unnamed | ⟨closes, bySeller⟩
        · rw [unnamed] at status closer
          exact ⟨status.trans oldStatus, closer.trans oldReason⟩
        · rw [closes] at status closer
          exact ⟨status, closer.trans bySeller⟩

theorem heeds_after {start : ListingStore} (heeds : start.Heeds) (events : List ListingEvent) :
    (after step start events).Heeds :=
  (Throughout.of_step (P := Heeds) (fun _ event kept => heeds_step kept event) heeds events).last

theorem sellerClosed_after {start : ListingStore} {listingId : String} {events : List ListingEvent}
    (heeds : start.Heeds) (guarded : Admits step Guarded start events)
    (closed : start.SellerClosed listingId) (kept : ∀ event ∈ events, ¬event.Reopens listingId) :
    (after step start events).SellerClosed listingId := by
  induction events generalizing start with
  | nil => exact closed
  | cons event rest ih =>
    exact ih (heeds_step heeds event) guarded.2
      (sellerClosed_step heeds guarded.1 closed (kept event List.mem_cons_self))
      fun later among => kept later (List.mem_cons_of_mem _ among)

/-- `closed_by` is set exactly on the closed listings. -/
def ReasonsMatch (store : ListingStore) : Prop :=
  ∀ listingId row, store.listings.get? listingId = some row →
    (row.closedBy ≠ none ↔ row.status = "closed")

def Durable (start : ListingStore) (events : List ListingEvent) : Prop :=
  ∀ closing reopening : List ListingEvent, closing ++ reopening <+: events → ∀ listingId,
    (after step start closing).SellerClosed listingId →
    (after step start (closing ++ reopening)).Open listingId →
    ∃ event ∈ reopening, event.Reopens listingId

/-- In a run whose every event is guarded a seller's close is durable, and in every state of
any run the reasons match the statuses. -/
theorem sellerClose_durable {start : ListingStore} (consistent : start.Consistent)
    (idle : start.upserts = []) {events : List ListingEvent} :
    (Admits step Guarded start events → start.Durable events) ∧
      Throughout step ReasonsMatch start events := by
  have heeds : start.Heeds := fun call among => by rw [idle] at among; cases among
  refine ⟨fun guarded closing reopening isPrefix listingId closed opened => ?_, ?_⟩
  · by_contra never
    obtain ⟨rest, rfl⟩ := isPrefix
    obtain ⟨run, -⟩ := Admits.append_iff.mp guarded
    obtain ⟨-, later⟩ := Admits.append_iff.mp run
    rw [after_append] at opened
    obtain ⟨row, stored, status, -⟩ := sellerClosed_after (heeds_after heeds closing) later closed
      fun event among reopens => never ⟨event, among, reopens⟩
    obtain ⟨row', stored', open'⟩ := opened
    rw [stored] at stored'
    cases stored'
    rw [status] at open'
    exact absurd open' (by decide)
  · have always := Throughout.of_step (P := Consistent)
      (fun _ event kept => consistent_step kept event) consistent events
    exact always.mono fun state kept listingId row stored => (kept listingId row stored).1.symm

def published : ListingStore where
  listings := ⟨[("listing", ⟨"open", none, Table.empty⟩)], by decide⟩
  bindings := Table.empty
  upserts := []

theorem published_consistent : published.Consistent := by
  intro listingId row stored
  obtain ⟨-, same⟩ := Prod.mk.inj (List.mem_singleton.mp (Dict.get?_eq_some.mp stored))
  rw [same]
  decide

def named (status : String) (closedBy reopenedBy : Option String) : ListingEvent :=
  .update ⟨"listing", some status, closedBy, reopenedBy, Table.empty⟩

theorem sellerClose_durable_reopened :
    published.Durable [named "closed" (some "seller") none, named "closed" (some "reconciliation") none,
      named "open" none (some "reconciliation"), named "open" none (some "seller")] :=
  (sellerClose_durable published_consistent rfl).1 (by decide)

/-- A third status on the way takes the seller's reason off, and the listing is open again
without its seller. -/
theorem third_status_reopens :
    ¬∀ (start : ListingStore) (events : List ListingEvent), start.Consistent → start.upserts = [] →
      start.Durable events ∧ Throughout step ReasonsMatch start events := by
  intro all
  obtain ⟨_, updated, reopens⟩ := (all published [named "closed" (some "seller") none,
      named "expired" none none, named "open" none (some "reconciliation")]
    published_consistent rfl).1
    [named "closed" (some "seller") none]
    [named "expired" none none, named "open" none (some "reconciliation")] List.prefix_rfl
    "listing" ⟨_, rfl, rfl, rfl⟩ ⟨_, rfl, rfl⟩
  rcases List.mem_pair.mp updated with rfl | rfl
  · exact absurd reopens.2 (by decide)
  · exact absurd reopens.2 (by decide)

end ListingStore

end ComputeMarket.Storefront
