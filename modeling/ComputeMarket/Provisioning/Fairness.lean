import ComputeMarket.Library.RoundRobin
import ComputeMarket.Provisioning.Scheduling

/-!
# The fairness of scheduling

An automatic selection moves two cursors on: the one of the pools and, in the pool that it picks,
the one of the pool's resources. Each is a round robin over a sorted list that does not depend on
the order in which the candidates are presented (`CandidateSet.select_eq`), so that a run of
selections picks pools and, in each pool, resources as `RoundRobin.picks` does (`selectAll_picks`).
-/

namespace ComputeMarket.Provisioning

open Fulfillment

variable {kind : String}

/-! ## Candidates -/

/-- Candidates that scheduling may choose from: at least one, and a resource once in a pool. -/
structure CandidateSet where
  candidates : List SettlementCandidate
  nonempty : candidates ≠ []
  distinct : (candidates.map fun candidate => (candidate.poolId, candidate.resourceId)).Nodup

namespace CandidateSet

variable (set : CandidateSet)

def pools : List String :=
  (set.candidates.map SettlementCandidate.poolId).dedup.insertionSort (· ≤ ·)

def resources (poolId : String) : List String :=
  ((set.candidates.filter fun candidate => candidate.poolId = poolId).map
    SettlementCandidate.resourceId).insertionSort (· ≤ ·)

variable {set} {presented : List SettlementCandidate}

theorem mem_pools {poolId : String} :
    poolId ∈ set.pools ↔ ∃ candidate ∈ set.candidates, candidate.poolId = poolId := by
  rw [pools, List.mem_insertionSort, List.mem_dedup, List.mem_map]

theorem pools_nodup : set.pools.Nodup :=
  (List.perm_insertionSort _ _).nodup_iff.mpr (List.nodup_dedup _)

theorem pools_ne_nil : set.pools ≠ [] := by
  obtain ⟨first, rest, same⟩ := List.exists_cons_of_ne_nil set.nonempty
  have member : first.poolId ∈ set.pools :=
    mem_pools.mpr ⟨first, by rw [same]; exact List.mem_cons_self, rfl⟩
  exact List.ne_nil_of_mem member

theorem resources_nodup (poolId : String) : (set.resources poolId).Nodup := by
  refine (List.perm_insertionSort _ _).nodup_iff.mpr ?_
  have kept := (set.distinct.sublist (List.filter_sublist.map _) :
    ((set.candidates.filter fun candidate => candidate.poolId = poolId).map
      fun candidate => (candidate.poolId, candidate.resourceId)).Nodup)
  rw [List.Nodup, List.pairwise_map] at kept ⊢
  refine kept.imp_of_mem fun {first second} isFirst isSecond differ same => differ ?_
  have firstPool := of_decide_eq_true (List.mem_filter.mp isFirst).2
  have secondPool := of_decide_eq_true (List.mem_filter.mp isSecond).2
  rw [firstPool, secondPool, same]

theorem resources_ne_nil {poolId : String} (pool : poolId ∈ set.pools) :
    set.resources poolId ≠ [] := by
  obtain ⟨candidate, member, inPool⟩ := mem_pools.mp pool
  have resource : candidate.resourceId ∈ set.resources poolId :=
    (List.mem_insertionSort _).mpr (List.mem_map_of_mem (List.mem_filter.mpr ⟨member,
      decide_eq_true inPool⟩))
  exact List.ne_nil_of_mem resource

theorem insertionSort_perm {first second : List String} (perm : first.Perm second) :
    first.insertionSort (· ≤ ·) = second.insertionSort (· ≤ ·) :=
  List.Perm.eq_of_pairwise'
    (List.pairwise_insertionSort _ _) (List.pairwise_insertionSort _ _)
    (((List.perm_insertionSort _ _).trans perm).trans (List.perm_insertionSort _ _).symm)

theorem pools_presented (perm : presented.Perm set.candidates) :
    (presented.map SettlementCandidate.poolId).dedup.insertionSort (· ≤ ·) = set.pools :=
  insertionSort_perm (perm.map _).dedup

theorem resources_presented (perm : presented.Perm set.candidates) (poolId : String) :
    (((presented.filter fun candidate => candidate.poolId = poolId).insertionSort
      fun first second => first.resourceId ≤ second.resourceId).map
        SettlementCandidate.resourceId) = set.resources poolId := by
  rw [List.map_insertionSort (fun first second : SettlementCandidate =>
    first.resourceId ≤ second.resourceId) (· ≤ ·) _ _ fun _ _ _ _ => Iff.rfl]
  exact insertionSort_perm ((perm.filter _).map _)

end CandidateSet

theorem nextAfter_eq {values : List String} (filled : values ≠ []) (previous : Option String) :
    nextAfter values previous = .ok (RoundRobin.pick values filled previous) := by
  obtain ⟨first, rest, rfl⟩ := List.exists_cons_of_ne_nil filled
  cases previous with
  | none => rfl
  | some name =>
    unfold nextAfter RoundRobin.pick
    dsimp only
    by_cases member : name ∈ first :: rest
    · simp only [RoundRobin.turn, if_pos member]
      rw [List.getD_eq_getElem?_getD, List.getElem?_eq_getElem (Nat.mod_lt _ (by simp))]
      rfl
    · simp only [RoundRobin.turn, if_neg member]
      rfl

namespace CandidateSet

variable {set : CandidateSet} {presented : List SettlementCandidate}

theorem select_eq (perm : presented.Perm set.candidates) (cursor : SchedulingCursor) :
    ∃ selected, ∃ pool : selected.poolId ∈ set.pools,
      selected.poolId = RoundRobin.pick set.pools pools_ne_nil cursor.lastPoolId ∧
      selected.resourceId = RoundRobin.pick (set.resources selected.poolId) (resources_ne_nil pool)
        (cursor.lastResourceByPool.get? selected.poolId) ∧
      select presented cursor = .ok (selected, { cursor with
        lastPoolId := some selected.poolId
        lastResourceByPool := cursor.lastResourceByPool.set selected.poolId selected.resourceId }) := by
  have pool : RoundRobin.pick set.pools pools_ne_nil cursor.lastPoolId ∈ set.pools :=
    List.getElem_mem _
  generalize isPool : RoundRobin.pick set.pools pools_ne_nil cursor.lastPoolId = poolId at pool
  have resource : RoundRobin.pick (set.resources poolId) (resources_ne_nil pool)
      (cursor.lastResourceByPool.get? poolId) ∈ set.resources poolId := List.getElem_mem _
  generalize isResource : RoundRobin.pick (set.resources poolId) (resources_ne_nil pool)
    (cursor.lastResourceByPool.get? poolId) = resourceId at resource
  have listed := resource
  rw [← resources_presented perm] at listed
  obtain ⟨candidate, among, named⟩ := List.mem_map.mp listed
  obtain ⟨selected, found⟩ : ∃ selected, List.find? (fun candidate : SettlementCandidate =>
      candidate.resourceId = resourceId)
        ((presented.filter fun candidate => candidate.poolId = poolId).insertionSort
          fun first second => first.resourceId ≤ second.resourceId) = some selected := by
    rw [← Option.isSome_iff_exists, List.find?_isSome]
    exact ⟨candidate, among, decide_eq_true named⟩
  have chosen : selected.resourceId = resourceId := by simpa using List.find?_some found
  have inPool : selected.poolId = poolId := by
    have sorted := (List.mem_insertionSort _).mp (List.mem_of_find?_eq_some found)
    exact of_decide_eq_true (List.mem_filter.mp sorted).2
  subst inPool
  refine ⟨selected, pool, rfl, chosen.trans isResource.symm, ?_⟩
  unfold select
  dsimp only
  rw [pools_presented perm, nextAfter_eq pools_ne_nil, isPool]
  dsimp only [bind, Except.bind]
  rw [resources_presented perm, nextAfter_eq (resources_ne_nil pool), isResource]
  dsimp only
  rw [found, chosen]

end CandidateSet

/-! ## Runs of selections -/

/-- One automatic selection of a kind: it constrains no resource, and is presented the candidates
in any order. -/
structure AutomaticSelection (set : CandidateSet) (kind : String) where
  request : PhysicalSettlementRequest
  requirement : SettlementRequirement
  presented : List SettlementCandidate
  unconstrained : request.resourceId = none
  ofKind : requirement.resourceKind = kind
  perm : presented.Perm set.candidates

variable {set : CandidateSet}

def selectAll : List (AutomaticSelection set kind) → Table SchedulingCursor →
    Except SchedulingError (List SettlementCandidate × Table SchedulingCursor)
  | [], cursors => .ok ([], cursors)
  | call :: rest, cursors => do
      let (selected, saved) ← selectCandidate call.request call.requirement call.presented cursors
      let (others, last) ← selectAll rest saved
      .ok (selected :: others, last)

def cursorOf (cursors : Table SchedulingCursor) (kind : String) : SchedulingCursor :=
  (cursors.find? kind).getD ⟨kind, none, Table.empty⟩

theorem cursorOf_kind (cursors : Table SchedulingCursor) :
    (cursorOf cursors kind).resourceKind = kind := by
  unfold cursorOf
  cases found : cursors.find? kind with
  | none => rfl
  | some cursor => exact (Table.find?_eq_some.mp found).2

theorem cursorOf_put {cursors : Table SchedulingCursor} {saved : SchedulingCursor}
    (ofKind : saved.resourceKind = kind) : cursorOf (cursors.put saved) kind = saved := by
  have found : (cursors.put saved).find? kind = some saved := by
    rw [← ofKind]
    exact Table.find?_put_self cursors saved
  rw [cursorOf, found, Option.getD_some]

theorem AutomaticSelection.picks (call : AutomaticSelection set kind)
    (cursors : Table SchedulingCursor) :
    ∃ selected saved, ∃ pool : selected.poolId ∈ set.pools,
      selectCandidate call.request call.requirement call.presented cursors =
        .ok (selected, saved) ∧
      selected.poolId = RoundRobin.pick set.pools CandidateSet.pools_ne_nil
        (cursorOf cursors kind).lastPoolId ∧
      selected.resourceId = RoundRobin.pick (set.resources selected.poolId)
        (CandidateSet.resources_ne_nil pool)
        ((cursorOf cursors kind).lastResourceByPool.get? selected.poolId) ∧
      (cursorOf saved kind).lastPoolId = some selected.poolId ∧
      ∀ poolId, (cursorOf saved kind).lastResourceByPool.get? poolId =
        if poolId = selected.poolId then some selected.resourceId
        else (cursorOf cursors kind).lastResourceByPool.get? poolId := by
  obtain ⟨selected, pool, isPool, isResource, selects⟩ :=
    CandidateSet.select_eq call.perm (cursorOf cursors kind)
  have saves : selectCandidate call.request call.requirement call.presented cursors =
      .ok (selected, cursors.put { cursorOf cursors kind with
        lastPoolId := some selected.poolId
        lastResourceByPool := (cursorOf cursors kind).lastResourceByPool.set selected.poolId
          selected.resourceId }) := by
    unfold selectCandidate
    rw [call.unconstrained, call.ofKind]
    dsimp only
    rw [← cursorOf, selects]
    rfl
  refine ⟨selected, _, pool, saves, isPool, isResource, ?_⟩
  rw [cursorOf_put]
  · exact ⟨rfl, fun poolId => Dict.get?_set _ _ _ _⟩
  · exact cursorOf_kind cursors

def chosenIn (selected : List SettlementCandidate) (poolId : String) : List String :=
  (selected.filter fun candidate => candidate.poolId = poolId).map SettlementCandidate.resourceId

/-- A run picks round robin: the pools, and in each pool its resources. -/
theorem selectAll_picks (calls : List (AutomaticSelection set kind))
    (cursors : Table SchedulingCursor) :
    ∃ selected last, selectAll calls cursors = .ok (selected, last) ∧
      selected.map SettlementCandidate.poolId = RoundRobin.picks set.pools
        CandidateSet.pools_ne_nil (cursorOf cursors kind).lastPoolId calls.length ∧
      ∀ poolId, ∀ pool : poolId ∈ set.pools, chosenIn selected poolId =
        RoundRobin.picks (set.resources poolId) (CandidateSet.resources_ne_nil pool)
          ((cursorOf cursors kind).lastResourceByPool.get? poolId)
          (chosenIn selected poolId).length := by
  induction calls generalizing cursors with
  | nil => exact ⟨[], cursors, rfl, rfl, fun _ _ => rfl⟩
  | cons call rest ih =>
    obtain ⟨first, saved, firstPool, selects, isPool, isResource, lastPool, lastResource⟩ :=
      call.picks cursors
    obtain ⟨others, last, run, pools, resources⟩ := ih saved
    refine ⟨first :: others, last, ?_, ?_, fun poolId pool => ?_⟩
    · rw [selectAll, selects]
      dsimp only [bind, Except.bind]
      rw [run]
    · rw [List.map_cons, pools, List.length_cons, RoundRobin.picks, ← isPool, lastPool]
    · have later := resources poolId pool
      rw [lastResource poolId] at later
      by_cases same : first.poolId = poolId
      · subst same
        rw [if_pos rfl] at later
        have cons : chosenIn (first :: others) first.poolId =
            first.resourceId :: chosenIn others first.poolId := by
          simp [chosenIn]
        rw [cons, List.length_cons, RoundRobin.picks, ← isResource, ← later]
      · rw [if_neg fun own => same own.symm] at later
        have skipped : chosenIn (first :: others) poolId = chosenIn others poolId := by
          simp [chosenIn, same]
        rw [skipped]
        exact later

/-- **Round-robin fairness**: from every state of the cursors, a run of `rounds` times as many
automatic selections as there are pools picks every pool `rounds` times, and where `rounds` times
as many as a pool has resources fall on the pool, they pick each of its resources `rounds` times. -/
theorem round_robin_fair (set : CandidateSet) (kind : String) (cursors : Table SchedulingCursor)
    (calls : List (AutomaticSelection set kind)) :
    ∃ selected last, selectAll calls cursors = .ok (selected, last) ∧
      (∀ rounds, calls.length = rounds * set.pools.length → ∀ poolId ∈ set.pools,
        (selected.map SettlementCandidate.poolId).count poolId = rounds) ∧
      ∀ poolId ∈ set.pools, ∀ rounds,
        (chosenIn selected poolId).length = rounds * (set.resources poolId).length →
        ∀ resourceId ∈ set.resources poolId,
          (chosenIn selected poolId).count resourceId = rounds := by
  obtain ⟨selected, last, run, pools, resources⟩ := selectAll_picks calls cursors
  refine ⟨selected, last, run, fun rounds many poolId pool => ?_,
    fun poolId pool rounds many resourceId resource => ?_⟩
  · rw [pools, many]
    exact RoundRobin.count_picks CandidateSet.pools_nodup _ rounds pool
  · rw [resources poolId pool, many]
    exact RoundRobin.count_picks (CandidateSet.resources_nodup poolId) _ rounds resource

end ComputeMarket.Provisioning
