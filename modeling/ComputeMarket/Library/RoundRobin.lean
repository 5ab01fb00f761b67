import Mathlib.Data.List.Count
import Mathlib.Data.List.Rotate
import Mathlib.Tactic.Ring

/-!
# Round robin

Picking from a list of different values, each time the one behind the value picked last and the
first one where that is none of them. As many picks as there are values are a rotation of the
list (`picks_length`), whatever was picked last before them, so that `count * values.length` picks
pick every value `count` times (`count_picks`).
-/

namespace ComputeMarket

namespace RoundRobin

variable {α : Type*} [DecidableEq α]

def turn (values : List α) : Option α → ℕ
  | none => 0
  | some previous =>
    if previous ∈ values then (values.idxOf previous + 1) % values.length else 0

theorem turn_lt {values : List α} (filled : values ≠ []) (previous : Option α) :
    turn values previous < values.length := by
  have positive := List.length_pos_iff.mpr filled
  cases previous with
  | none => exact positive
  | some value =>
    rw [turn]
    split
    · exact Nat.mod_lt _ positive
    · exact positive

def pick (values : List α) (filled : values ≠ []) (previous : Option α) : α :=
  values.get ⟨turn values previous, turn_lt filled previous⟩

def picks (values : List α) (filled : values ≠ []) : Option α → ℕ → List α
  | _, 0 => []
  | previous, count + 1 =>
    pick values filled previous :: picks values filled (some (pick values filled previous)) count

variable {values : List α} {filled : values ≠ []}

theorem turn_pick (distinct : values.Nodup) (previous : Option α) :
    turn values (some (pick values filled previous)) =
      (turn values previous + 1) % values.length := by
  unfold pick
  rw [turn, List.get_eq_getElem, if_pos (List.getElem_mem _), distinct.idxOf_getElem]

/-- A pick is the front of the list, turned to the value whose turn it is; behind it stand the
others, and it last. -/
theorem rotate_turn (distinct : values.Nodup) (previous : Option α) :
    ∃ others, values.rotate (turn values previous) = pick values filled previous :: others ∧
      values.rotate (turn values (some (pick values filled previous))) =
        others ++ [pick values filled previous] := by
  have small := turn_lt filled previous
  have turned : values.rotate (turn values previous) = pick values filled previous ::
      (values.drop (turn values previous + 1) ++ values.take (turn values previous)) := by
    rw [List.rotate_eq_drop_append_take small.le, List.drop_eq_getElem_cons small]
    rfl
  refine ⟨_, turned, ?_⟩
  rw [turn_pick distinct, List.rotate_mod, ← List.rotate_rotate, turned, List.rotate_cons_succ,
    List.rotate_zero]

theorem picks_of_le (distinct : values.Nodup) {count : ℕ} (few : count ≤ values.length)
    (previous : Option α) :
    picks values filled previous count = (values.rotate (turn values previous)).take count := by
  induction count generalizing previous with
  | zero => rfl
  | succ count ih =>
    obtain ⟨others, now, next⟩ := @rotate_turn _ _ _ filled distinct previous
    have all : others.length + 1 = values.length := by
      rw [← List.length_rotate values, now, List.length_cons]
    rw [picks, ih (by omega), now, next, List.take_succ_cons,
      List.take_append_of_le_length (by omega)]

theorem picks_length (distinct : values.Nodup) (previous : Option α) :
    picks values filled previous values.length = values.rotate (turn values previous) := by
  rw [picks_of_le distinct le_rfl, List.take_of_length_le (List.length_rotate ..).le]

theorem picks_add (previous : Option α) (first second : ℕ) :
    ∃ last, picks values filled previous (first + second) =
      picks values filled previous first ++ picks values filled last second := by
  induction first generalizing previous with
  | zero => exact ⟨previous, by rw [Nat.zero_add]; rfl⟩
  | succ first ih =>
    obtain ⟨last, same⟩ := ih (some (pick values filled previous))
    refine ⟨last, ?_⟩
    rw [Nat.add_right_comm, picks, same]
    rfl

/-- **Every value is picked as often as every other** in so many rounds, from any value. -/
theorem count_picks (distinct : values.Nodup) (previous : Option α) (rounds : ℕ) {value : α}
    (member : value ∈ values) :
    (picks values filled previous (rounds * values.length)).count value = rounds := by
  induction rounds generalizing previous with
  | zero => rw [Nat.zero_mul]; rfl
  | succ rounds ih =>
    obtain ⟨last, same⟩ := @picks_add _ _ _ filled previous values.length
      (rounds * values.length)
    rw [Nat.succ_mul, Nat.add_comm, same, List.count_append, picks_length distinct, ih,
      (List.rotate_perm _ _).count_eq, List.count_eq_one_of_mem distinct member, Nat.add_comm]

end RoundRobin

end ComputeMarket
