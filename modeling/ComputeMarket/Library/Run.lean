import Mathlib.Data.List.Infix
import Mathlib.Logic.Relation

/-!
# Runs of a deterministic step function

A run is a list of inputs folded through a step function. Two predicates walk a
run from its first state: `Throughout P` says that every state the run passes
satisfies `P`, and `Admits ok` says that every input meets `ok` in the state
that takes it. `Throughout.of_admits` is the invariant rule: what one admitted
step preserves, a whole admitted run preserves. `throughout_iff_admits` is its
exact form, for a step that keeps `P` precisely when its input is admitted. `Once` and
`OnceTaken` look back over a run, and `Admits.concat_induction` is the invariant rule for
what a run says of its past.

`bind_eq_ok` takes a fallible sequence apart: it ends well exactly when its first
part does and its second part does from there. `refuse_eq_ok` and `require_eq_ok` do so for a check
in front of the rest.
-/

namespace ComputeMarket

universe v

theorem bind_eq_ok {ε : Type*} {α β : Type v} {first : Except ε α} {next : α → Except ε β} {result : β} :
    (first >>= next) = .ok result ↔ ∃ value, first = .ok value ∧ next value = .ok result := by
  cases first with
  | error raised =>
    refine ⟨fun done => ?_, fun ⟨_, done, _⟩ => ?_⟩
    · cases done
    · cases done
  | ok value =>
    refine ⟨fun done => ⟨value, rfl, done⟩, fun ⟨other, same, done⟩ => ?_⟩
    cases same
    exact done

/-- A check that refuses ends well where it does not refuse, and what is behind it does. -/
theorem refuse_eq_ok {ε α : Type*} {refuses : Prop} [Decidable refuses] {refusal : ε}
    {rest : Except ε α} {result : α} :
    (if refuses then .error refusal else rest) = .ok result ↔ ¬refuses ∧ rest = .ok result := by
  split
  next refused => exact iff_of_false nofun fun both => both.1 refused
  next passed => exact (and_iff_right passed).symm

theorem require_eq_ok {ε α : Type*} {met : Prop} [Decidable met] {refusal : ε}
    {rest : Except ε α} {result : α} :
    (if met then rest else .error refusal) = .ok result ↔ met ∧ rest = .ok result := by
  split
  next passed => exact (and_iff_right passed).symm
  next refused => exact iff_of_false nofun fun both => refused both.1

theorem map_eq_ok {ε : Type*} {α β : Type v} {computed : Except ε α} {f : α → β} {result : β} :
    f <$> computed = .ok result ↔ ∃ value, computed = .ok value ∧ f value = result := by
  cases computed with
  | error raised => exact ⟨nofun, nofun⟩
  | ok value =>
    constructor
    · intro done
      cases done
      exact ⟨value, rfl, rfl⟩
    · rintro ⟨_, same, rfl⟩
      cases same
      rfl

theorem mapM_eq_ok {ε α β : Type*} {f : α → Except ε β} {inputs : List α} {results : List β} :
    inputs.mapM f = .ok results ↔ List.Forall₂ (fun input result => f input = .ok result) inputs results := by
  induction inputs generalizing results with
  | nil =>
    rw [List.mapM_nil]
    constructor
    · intro done
      cases done
      exact .nil
    · intro paired
      cases paired
      rfl
  | cons input rest ih =>
    rw [List.mapM_cons]
    constructor
    · intro done
      obtain ⟨value, first, done⟩ := bind_eq_ok.mp done
      obtain ⟨values, others, done⟩ := bind_eq_ok.mp done
      cases done
      exact .cons first (ih.mp others)
    · intro paired
      cases paired with
      | cons first others =>
        exact bind_eq_ok.mpr ⟨_, first, bind_eq_ok.mpr ⟨_, ih.mpr others, rfl⟩⟩

theorem exists_of_forall₂ {α β : Type*} {related : α → β → Prop} {first : List α} {second : List β}
    (paired : List.Forall₂ related first second) {left : α} (member : left ∈ first) :
    ∃ right ∈ second, related left right := by
  induction paired with
  | nil => cases member
  | cons here _ ih =>
    rcases List.mem_cons.mp member with rfl | behind
    · exact ⟨_, List.mem_cons_self, here⟩
    · obtain ⟨right, member, there⟩ := ih behind
      exact ⟨right, List.mem_cons_of_mem _ member, there⟩

theorem exists_mapM_ok_iff {ε α β : Type*} {f : α → Except ε β} {inputs : List α} :
    (∃ results, inputs.mapM f = .ok results) ↔ ∀ input ∈ inputs, ∃ result, f input = .ok result := by
  constructor
  · rintro ⟨results, done⟩ input member
    obtain ⟨result, -, paired⟩ := exists_of_forall₂ (mapM_eq_ok.mp done) member
    exact ⟨result, paired⟩
  · intro each
    induction inputs with
    | nil => exact ⟨[], rfl⟩
    | cons input rest ih =>
      obtain ⟨result, first⟩ := each input List.mem_cons_self
      obtain ⟨results, behind⟩ := ih fun other member => each other (List.mem_cons_of_mem _ member)
      exact ⟨result :: results, mapM_eq_ok.mpr (.cons first (mapM_eq_ok.mp behind))⟩

variable {S A : Type*} {step : S → A → S}

def after (step : S → A → S) (start : S) (inputs : List A) : S :=
  inputs.foldl step start

/-- Every state of the run, its first and its last included, satisfies `P`. -/
def Throughout (step : S → A → S) (P : S → Prop) : S → List A → Prop
  | state, [] => P state
  | state, input :: rest => P state ∧ Throughout step P (step state input) rest

/-- Every input of the run meets `ok` in the state that takes it. -/
def Admits (step : S → A → S) (ok : S → A → Prop) : S → List A → Prop
  | _, [] => True
  | state, input :: rest => ok state input ∧ Admits step ok (step state input) rest

@[simp] theorem after_nil (start : S) : after step start [] = start := rfl

@[simp] theorem after_cons (start : S) (input : A) (rest : List A) :
    after step start (input :: rest) = after step (step start input) rest := rfl

theorem after_append (start : S) (first second : List A) :
    after step start (first ++ second) = after step (after step start first) second :=
  List.foldl_append

namespace Throughout

variable {P Q : S → Prop}

instance decidable [DecidablePred P] (start : S) :
    (inputs : List A) → Decidable (Throughout step P start inputs)
  | [] => inferInstanceAs (Decidable (P start))
  | input :: rest =>
    have := decidable (step start input) rest
    inferInstanceAs (Decidable (P start ∧ Throughout step P (step start input) rest))

theorem head {start : S} {inputs : List A} (all : Throughout step P start inputs) : P start := by
  cases inputs with
  | nil => exact all
  | cons input rest => exact all.1

theorem last {start : S} {inputs : List A} (all : Throughout step P start inputs) :
    P (after step start inputs) := by
  induction inputs generalizing start with
  | nil => exact all
  | cons input rest ih => exact ih all.2

theorem mono (weaker : ∀ state, P state → Q state) {start : S} {inputs : List A}
    (all : Throughout step P start inputs) : Throughout step Q start inputs := by
  induction inputs generalizing start with
  | nil => exact weaker _ all
  | cons input rest ih => exact ⟨weaker _ all.1, ih all.2⟩

/-- A run passes exactly the states its prefixes end in. -/
theorem iff_prefixes {start : S} {inputs : List A} :
    Throughout step P start inputs ↔
      ∀ done : List A, done <+: inputs → P (after step start done) := by
  induction inputs generalizing start with
  | nil =>
    constructor
    · intro all done isPrefix
      rw [List.prefix_nil.mp isPrefix]
      exact all
    · intro all
      exact all [] (List.nil_prefix)
  | cons input rest ih =>
    constructor
    · rintro ⟨here, later⟩ done isPrefix
      rcases List.prefix_cons_iff.mp isPrefix with rfl | ⟨tail, rfl, tailPrefix⟩
      · exact here
      · exact ih.mp later tail tailPrefix
    · intro all
      refine ⟨all [] List.nil_prefix, ih.mpr ?_⟩
      intro tail tailPrefix
      exact all (input :: tail) (List.prefix_cons_iff.mpr (.inr ⟨tail, rfl, tailPrefix⟩))

theorem of_admits {ok : S → A → Prop}
    (preserved : ∀ state input, P state → ok state input → P (step state input))
    {start : S} (init : P start) {inputs : List A} (admitted : Admits step ok start inputs) :
    Throughout step P start inputs := by
  induction inputs generalizing start with
  | nil => exact init
  | cons input rest ih =>
    exact ⟨init, ih (preserved _ _ init admitted.1) admitted.2⟩

theorem of_step (preserved : ∀ state input, P state → P (step state input))
    {start : S} (init : P start) (inputs : List A) : Throughout step P start inputs := by
  induction inputs generalizing start with
  | nil => exact init
  | cons input rest ih => exact ⟨init, ih (preserved _ _ init)⟩

end Throughout

namespace Admits

variable {ok ok' : S → A → Prop}

instance decidable [∀ state input, Decidable (ok state input)] (start : S) :
    (inputs : List A) → Decidable (Admits step ok start inputs)
  | [] => inferInstanceAs (Decidable True)
  | input :: rest =>
    have := decidable (step start input) rest
    inferInstanceAs (Decidable (ok start input ∧ Admits step ok (step start input) rest))

theorem mono (weaker : ∀ state input, ok state input → ok' state input)
    {start : S} {inputs : List A} (admitted : Admits step ok start inputs) :
    Admits step ok' start inputs := by
  induction inputs generalizing start with
  | nil => trivial
  | cons input rest ih => exact ⟨weaker _ _ admitted.1, ih admitted.2⟩

theorem of_forall (always : ∀ state input, ok state input) (start : S) (inputs : List A) :
    Admits step ok start inputs := by
  induction inputs generalizing start with
  | nil => trivial
  | cons input rest ih => exact ⟨always _ _, ih _⟩

/-- What admits every input of a list whatever the state admits its runs. -/
theorem of_mem {okInput : A → Prop} {inputs : List A} (each : ∀ input ∈ inputs, okInput input)
    (start : S) : Admits step (fun _ => okInput) start inputs := by
  induction inputs generalizing start with
  | nil => trivial
  | cons input rest ih =>
    exact ⟨each input List.mem_cons_self,
      ih (fun other later => each other (List.mem_cons_of_mem _ later)) _⟩

theorem append_iff {start : S} {first second : List A} :
    Admits step ok start (first ++ second) ↔
      Admits step ok start first ∧ Admits step ok (after step start first) second := by
  induction first generalizing start with
  | nil => exact ⟨fun admitted => ⟨trivial, admitted⟩, fun admitted => admitted.2⟩
  | cons input rest ih =>
    constructor
    · rintro ⟨here, later⟩
      exact ⟨⟨here, (ih.mp later).1⟩, (ih.mp later).2⟩
    · rintro ⟨⟨here, later⟩, last⟩
      exact ⟨here, ih.mpr ⟨later, last⟩⟩

theorem iff_prefixes {start : S} {inputs : List A} :
    Admits step ok start inputs ↔
      ∀ done input, done ++ [input] <+: inputs → ok (after step start done) input := by
  constructor
  · rintro admitted done input ⟨rest, rfl⟩
    rw [List.append_assoc] at admitted
    exact (append_iff.mp admitted).2.1
  · intro each
    induction inputs using List.reverseRecOn with
    | nil => trivial
    | append_singleton done input ih =>
      refine append_iff.mpr ⟨ih fun earlier other isPrefix => ?_, ?_, trivial⟩
      · exact each earlier other (isPrefix.trans (List.prefix_append _ _))
      · exact each done input List.prefix_rfl

/-- What an invariant gives of each admitted input holds of every input of an admitted run. -/
theorem of_invariant {P : S → Prop}
    (preserved : ∀ state input, P state → ok state input → P (step state input))
    (meets : ∀ state input, P state → ok state input → ok' state input)
    {start : S} (init : P start) {inputs : List A} (admitted : Admits step ok start inputs) :
    Admits step ok' start inputs := by
  induction inputs generalizing start with
  | nil => trivial
  | cons input rest ih =>
    exact ⟨meets _ _ init admitted.1, ih (preserved _ _ init admitted.1) admitted.2⟩

end Admits

/-! ## What a run has passed -/

/-- Some state of the run satisfies `P`. -/
def Once (step : S → A → S) (P : S → Prop) (start : S) (inputs : List A) : Prop :=
  ∃ done, done <+: inputs ∧ P (after step start done)

/-- Some input of the run satisfies `R` with the state that takes it. -/
def OnceTaken (step : S → A → S) (R : S → A → Prop) (start : S) (inputs : List A) : Prop :=
  ∃ done input, done ++ [input] <+: inputs ∧ R (after step start done) input

theorem once_iff_inits {P : S → Prop} {start : S} {inputs : List A} :
    Once step P start inputs ↔ ∃ done ∈ inputs.inits, P (after step start done) :=
  exists_congr fun _ => and_congr_left' (List.mem_inits _ _).symm

instance Once.decidable {P : S → Prop} [DecidablePred P] (start : S) (inputs : List A) :
    Decidable (Once step P start inputs) :=
  decidable_of_iff _ once_iff_inits.symm

@[simp] theorem once_nil {P : S → Prop} {start : S} : Once step P start [] ↔ P start := by
  constructor
  · rintro ⟨done, isPrefix, holds⟩
    rw [List.prefix_nil.mp isPrefix] at holds
    exact holds
  · intro holds
    exact ⟨[], List.nil_prefix, holds⟩

theorem once_concat {P : S → Prop} {start : S} {inputs : List A} {input : A} :
    Once step P start (inputs ++ [input]) ↔
      Once step P start inputs ∨ P (after step start (inputs ++ [input])) := by
  constructor
  · rintro ⟨done, isPrefix, holds⟩
    rcases List.prefix_concat_iff.mp isPrefix with rfl | earlier
    · exact .inr holds
    · exact .inl ⟨done, earlier, holds⟩
  · rintro (⟨done, isPrefix, holds⟩ | holds)
    · exact ⟨done, isPrefix.trans (List.prefix_append _ _), holds⟩
    · exact ⟨_, List.prefix_rfl, holds⟩

@[simp] theorem not_onceTaken_nil {R : S → A → Prop} {start : S} :
    ¬OnceTaken step R start [] := by
  rintro ⟨done, input, isPrefix, _⟩
  exact List.append_ne_nil_of_right_ne_nil _ (List.cons_ne_nil _ _)
    (List.prefix_nil.mp isPrefix)

theorem onceTaken_concat {R : S → A → Prop} {start : S} {inputs : List A} {input : A} :
    OnceTaken step R start (inputs ++ [input]) ↔
      OnceTaken step R start inputs ∨ R (after step start inputs) input := by
  constructor
  · rintro ⟨done, taken, isPrefix, holds⟩
    rcases List.prefix_concat_iff.mp isPrefix with same | earlier
    · obtain ⟨rfl, sameInput⟩ := List.append_inj' same rfl
      cases sameInput
      exact .inr holds
    · exact .inl ⟨done, taken, earlier, holds⟩
  · rintro (⟨done, taken, isPrefix, holds⟩ | holds)
    · exact ⟨done, taken, isPrefix.trans (List.prefix_append _ _), holds⟩
    · exact ⟨inputs, input, List.prefix_rfl, holds⟩

/-- The invariant rule for a property of the whole run so far. -/
theorem Admits.concat_induction {ok : S → A → Prop} {start : S} {J : List A → Prop}
    (init : J [])
    (preserved : ∀ done input, J done → ok (after step start done) input → J (done ++ [input]))
    {inputs : List A} (admitted : Admits step ok start inputs) : J inputs := by
  induction inputs using List.reverseRecOn with
  | nil => exact init
  | append_singleton done input ih =>
    obtain ⟨earlier, here⟩ := Admits.append_iff.mp admitted
    exact preserved done input (ih earlier) here.1

/-- Where one step keeps `P` exactly when its input is admitted, a whole run
satisfies `P` exactly when all its inputs are. `J` is what every step keeps; `side` is
what the run is known to meet anyway. -/
theorem throughout_iff_admits {P J : S → Prop} {ok side : S → A → Prop}
    (kept : ∀ state input, J state → side state input → J (step state input))
    (exact_step : ∀ state input, J state → side state input → P state →
      (ok state input ↔ P (step state input)))
    {start : S} (invariant : J start) (init : P start) {inputs : List A}
    (sides : Admits step side start inputs) :
    Throughout step P start inputs ↔ Admits step ok start inputs := by
  induction inputs generalizing start with
  | nil => exact ⟨fun _ => trivial, fun _ => init⟩
  | cons input rest ih =>
    obtain ⟨sideHere, sidesLater⟩ := sides
    have invariantNext := kept _ _ invariant sideHere
    refine ⟨fun ⟨_, later⟩ => ?_, fun ⟨admitted, later⟩ => ?_⟩
    · have held := later.head
      exact ⟨(exact_step _ _ invariant sideHere init).mpr held,
        (ih invariantNext held sidesLater).mp later⟩
    · have held := (exact_step _ _ invariant sideHere init).mp admitted
      exact ⟨init, (ih invariantNext held sidesLater).mpr later⟩

end ComputeMarket
