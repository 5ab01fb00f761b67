import Mathlib.Order.Lattice

/-!
# Half-open windows

A window is a start and a stop, either of which may be missing: `[start, stop)`
with `none` as unbounded. `Window.Contains` is membership of an instant,
`Window.Meets` the overlap test of two windows by their ends. The test is sound
for every pair of windows, inverted ones included: two windows that contain one
instant meet (`Window.Meets.of_contains`). A window that is inverted or empty
contains nothing and may still meet others, so the converse is not claimed.
-/

namespace ComputeMarket

structure Window (T : Type*) where
  start : Option T
  stop : Option T
  deriving DecidableEq

namespace Window

variable {T : Type*} [LinearOrder T]

def always : Window T := ⟨none, none⟩

/-- `instant` lies in `[start, stop)`. -/
def Contains (window : Window T) (instant : T) : Prop :=
  (∀ first ∈ window.start, first ≤ instant) ∧ ∀ stop ∈ window.stop, instant < stop

def Meets (first second : Window T) : Prop :=
  (∀ stop ∈ first.stop, ∀ start ∈ second.start, start < stop) ∧
    ∀ stop ∈ second.stop, ∀ start ∈ first.start, start < stop

instance (window : Window T) (instant : T) : Decidable (window.Contains instant) := by
  unfold Contains
  infer_instance

instance (first second : Window T) : Decidable (first.Meets second) := by
  unfold Meets
  infer_instance

@[simp] theorem contains_always (instant : T) : (always : Window T).Contains instant := by
  simp [Contains, always]

theorem Meets.symm {first second : Window T} (meets : first.Meets second) :
    second.Meets first :=
  ⟨meets.2, meets.1⟩

theorem Meets.of_contains {first second : Window T} {instant : T}
    (left : first.Contains instant) (right : second.Contains instant) : first.Meets second := by
  refine ⟨fun stop isStop start isStart => ?_, fun stop isStop start isStart => ?_⟩
  · exact lt_of_le_of_lt (right.1 start isStart) (left.2 stop isStop)
  · exact lt_of_le_of_lt (left.1 start isStart) (right.2 stop isStop)

theorem Contains.of_earlier_stop {window : Window T} {stop instant : T}
    (earlier : ∀ old ∈ window.stop, stop ≤ old)
    (inside : Contains ⟨window.start, some stop⟩ instant) : window.Contains instant := by
  refine ⟨inside.1, fun old isOld => ?_⟩
  exact lt_of_lt_of_le (inside.2 stop rfl) (earlier old isOld)

/-- Ending a window earlier keeps it clear of what it was clear of. -/
theorem Meets.of_earlier_stop {window other : Window T} {stop : T}
    (earlier : ∀ old ∈ window.stop, stop ≤ old)
    (meets : Meets ⟨window.start, some stop⟩ other) : window.Meets other := by
  refine ⟨fun old isOld start isStart => ?_, meets.2⟩
  exact lt_of_lt_of_le (meets.1 stop rfl start isStart) (earlier old isOld)

end Window

end ComputeMarket
