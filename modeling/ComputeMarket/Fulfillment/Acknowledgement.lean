import ComputeMarket.Fulfillment.Moves

/-!
# Late create acknowledgements

A caller that dispatched its create acknowledges it after convergence may have dispatched the
same operation and carried the record on. An acknowledgement of metadata that the record
already has is harmless exactly where the record it reads is `dispatching`: further on it
raises (`late_acknowledgement_raises`), and a pending record it moves.
-/

namespace ComputeMarket.Fulfillment

variable {held : SettlementRecord} {metadata : Metadata}

theorem Acknowledges.reached {written : SettlementRecord}
    (acknowledges : Acknowledges held metadata written) : written.state = .dispatching := by
  cases acknowledges with
  | known _ dispatching => exact dispatching
  | recorded => rfl

theorem acknowledgeCreate_known_iff {id : String} (known : held.providerMetadata = metadata) :
    acknowledgeCreate (some held) id metadata = .ok held ↔ held.state = .dispatching := by
  constructor
  · intro done
    exact (acknowledgeCreate_ok done).reached
  · intro dispatching
    unfold acknowledgeCreate
    simp [known, dispatching]

namespace FulfillmentState

variable {derive : String → String → String} {state : FulfillmentState}

/-- An acknowledgement of metadata that the record it read has already answers with that
record and changes no row. -/
def HarmlessWhenKnown (derive : String → String → String) (state : FulfillmentState) :
    Event → Prop
  | .acknowledgeWrite callId => ∀ request held,
      state.phase callId = .acknowledging request held.providerMetadata (some held) →
        state.acknowledgement callId = some (.ok held) ∧
          ∀ id, (state.step derive (.acknowledgeWrite callId)).get id = state.get id
  | _ => True

/-- An acknowledgement of metadata that the record it read has already read it dispatching. -/
def InTime (state : FulfillmentState) : Event → Prop
  | .acknowledgeWrite callId => ∀ request held,
      state.phase callId = .acknowledging request held.providerMetadata (some held) →
        held.state = .dispatching
  | _ => True

theorem acknowledgement_of_known {callId : String} {request : BeginRequest}
    (acknowledging : state.phase callId = .acknowledging request metadata (some held)) :
    state.acknowledgement callId =
      some (acknowledgeCreate (some held) request.capacityReservationId metadata) := by
  unfold acknowledgement
  rw [acknowledging]

theorem acknowledgeWrite_get {callId : String} {request : BeginRequest}
    (acknowledging : state.phase callId = .acknowledging request metadata (some held))
    (answers : acknowledgeCreate (some held) request.capacityReservationId metadata = .ok held)
    (id : String) : (state.acknowledgeWrite callId).get id = state.get id := by
  unfold acknowledgeWrite
  rw [acknowledging]
  simp only [answers, get_advance, get_save]
  split
  · cases state.get id with
    | none => rfl
    | some stored => rw [Option.map_some, SettlementRecord.flush_unchanged]
  · rfl

theorem harmless_iff_inTime (derive : String → String → String) (state : FulfillmentState)
    (event : Event) : HarmlessWhenKnown derive state event ↔ InTime state event := by
  cases event with
  | acknowledgeWrite callId =>
    refine forall_congr' fun request => forall_congr' fun held => forall_congr' fun read => ?_
    rw [acknowledgement_of_known read, Option.some.injEq, acknowledgeCreate_known_iff rfl]
    refine ⟨And.left, fun dispatching => ⟨dispatching, ?_⟩⟩
    exact acknowledgeWrite_get read ((acknowledgeCreate_known_iff rfl).mpr dispatching)
  | schedule | abandon | beginRead | beginWrite | dispatchCreate | acknowledgeRead | teardownRead
  | teardownWrite | compensate | claim | workerCreate | settle | releaseWorkerClaims | clearClaim
  | recordProgress => exact Iff.rfl

/-- The sample's create, dispatched by its caller only after a worker has dispatched it and
found it active. -/
def overtakenCreate : List Event :=
  sampleSettled (sampleDispatched sampleAccepted sampleMetadata) .dispatching
      (.succeeded (.ok ["target"])) ++
    [.dispatchCreate "call" (some sampleMetadata) true, .acknowledgeRead "call"]

/-- An acknowledging transaction holds a record of the metadata it is to write. -/
def echoes : Phase → Bool
  | .acknowledging _ metadata (some held) => metadata = held.providerMetadata
  | _ => false

theorem exists_of_echoes {phase : Phase} (echo : echoes phase = true) :
    ∃ request held, phase = .acknowledging request held.providerMetadata (some held) := by
  unfold echoes at echo
  split at echo
  · next request metadata held =>
    exact ⟨request, held, by rw [of_decide_eq_true echo]⟩
  · cases echo

end FulfillmentState

end ComputeMarket.Fulfillment
