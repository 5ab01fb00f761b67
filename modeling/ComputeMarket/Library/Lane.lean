import ComputeMarket.Library.Process

/-!
# Processes under a lock

A lane runs one process at a time beside a world that moves by itself; a process may be
cancelled at any of its queries. Where each of its own steps keeps an invariant of the worlds
(`Process.Keeps`), so does every run of the lane, and each process that ends meets its
postcondition (`Lane.sound`).
-/

namespace ComputeMarket

universe u v w

namespace Process

variable {Q : Type u} {A : Q → Type v} {α β : Type w} {S : Type*}

def Stable (moves : S → S → Prop) (holds : S → Prop) : Prop :=
  ∀ first second, moves first second → holds first → holds second

/-- Each step of the process keeps the invariant and is one the guarantee allows, and the process
ends only where the postcondition holds. -/
def Keeps (moves : S → S → Prop) (answers : (query : Q) → S → A query → S → Prop)
    (inv : S → Prop) (guar : S → S → Prop) (post : α → S → Prop) : Process Q A α → S → Prop
  | .done value, world => ∀ later, Relation.ReflTransGen moves world later → inv later →
      post value later
  | .ask query next, world => ∀ later, Relation.ReflTransGen moves world later → inv later →
      ∀ answer left, answers query later answer left →
        inv left ∧ guar later left ∧ (next answer).Keeps moves answers inv guar post left

variable {moves : S → S → Prop} {answers : (query : Q) → S → A query → S → Prop}
  {inv : S → Prop} {guar : S → S → Prop} {post : α → S → Prop} {holds : S → Prop} {world : S}

theorem Stable.run (stable : Stable moves holds) {later : S}
    (run : Relation.ReflTransGen moves world later) (here : holds world) : holds later := by
  induction run with
  | refl => exact here
  | tail _ step ih => exact stable _ _ step ih

/-- A process that is about to end has only to meet its postcondition. -/
theorem Keeps.done {value : α} (stable : Stable moves holds) (here : holds world)
    (met : ∀ later, inv later → holds later → post value later) :
    (Process.done value).Keeps moves answers inv guar post world :=
  fun later run keeps => met later keeps (stable.run run here)

/-- A process that is about to ask, with what it knows of the world until then. -/
theorem Keeps.ask {query : Q} {next : A query → Process Q A α} (stable : Stable moves holds)
    (here : holds world)
    (answered : ∀ later answer left, inv later → holds later → answers query later answer left →
      inv left ∧ guar later left ∧ (next answer).Keeps moves answers inv guar post left) :
    (Process.ask query next).Keeps moves answers inv guar post world :=
  fun later run keeps answer left reply =>
    answered later answer left keeps (stable.run run here) reply

theorem Keeps.moved {later : S} {process : Process Q A α}
    (keeps : process.Keeps moves answers inv guar post world)
    (run : Relation.ReflTransGen moves world later) :
    process.Keeps moves answers inv guar post later := by
  cases process with
  | done value => exact fun last onward => keeps last (run.trans onward)
  | ask query next => exact fun last onward => keeps last (run.trans onward)

end Process

/-! ## Lanes -/

structure Lane (Q : Type u) (A : Q → Type v) (α : Type w) (S : Type*) where
  world : S
  running : Option (Process Q A α)

namespace Lane

variable {Q : Type u} {A : Q → Type v} {α : Type w} {S : Type*} {κ : Type*}

inductive Step (moves : S → S → Prop) (answers : (query : Q) → S → A query → S → Prop)
    (program : κ → Process Q A α) : Lane Q A α S → Lane Q A α S → Prop
  /-- The world moves by itself. -/
  | moved {lane : Lane Q A α S} {world : S} (onward : moves lane.world world) :
      Step moves answers program lane { lane with world := world }
  /-- A process takes the lock. -/
  | started {lane : Lane Q A α S} (free : lane.running = none) (call : κ) :
      Step moves answers program lane { lane with running := some (program call) }
  | answered {lane : Lane Q A α S} {query : Q} {next : A query → Process Q A α} {answer : A query}
      {world : S} (runs : lane.running = some (.ask query next))
      (reply : answers query lane.world answer world) :
      Step moves answers program lane ⟨world, some (next answer)⟩
  | returned {lane : Lane Q A α S} {value : α} (runs : lane.running = some (.done value)) :
      Step moves answers program lane { lane with running := none }
  /-- The process is cancelled where it waits. -/
  | cancelled {lane : Lane Q A α S} {query : Q} {next : A query → Process Q A α}
      (runs : lane.running = some (.ask query next)) :
      Step moves answers program lane { lane with running := none }

def idle (world : S) : Lane Q A α S := ⟨world, none⟩

abbrev Reaches (moves : S → S → Prop) (answers : (query : Q) → S → A query → S → Prop)
    (program : κ → Process Q A α) : Lane Q A α S → Lane Q A α S → Prop :=
  Relation.ReflTransGen (Step moves answers program)

structure Sound (moves : S → S → Prop) (answers : (query : Q) → S → A query → S → Prop)
    (inv : S → Prop) (guar : S → S → Prop) (post : α → S → Prop) (lane : Lane Q A α S) :
    Prop where
  world : inv lane.world
  running : ∀ process, lane.running = some process →
    process.Keeps moves answers inv guar post lane.world

variable {moves : S → S → Prop} {answers : (query : Q) → S → A query → S → Prop}
  {program : κ → Process Q A α} {inv : S → Prop} {guar : S → S → Prop} {post : α → S → Prop}
  {lane next : Lane Q A α S}

/-- One step keeps a lane sound and moves its world within the guarantee. -/
theorem Sound.step (refl : ∀ state, guar state state)
    (stable : Process.Stable moves inv)
    (within : ∀ {first second}, inv first → moves first second → guar first second)
    (keeps : ∀ call {state}, inv state →
      (program call).Keeps moves answers inv guar post state)
    (sound : lane.Sound moves answers inv guar post) (step : Step moves answers program lane next) :
    next.Sound moves answers inv guar post ∧ guar lane.world next.world := by
  cases step with
  | moved onward =>
    refine ⟨⟨stable _ _ onward sound.world, fun process runs => ?_⟩, within sound.world onward⟩
    exact (sound.running process runs).moved (.single onward)
  | started free call =>
    refine ⟨⟨sound.world, fun process runs => ?_⟩, refl _⟩
    cases runs
    exact keeps call sound.world
  | @answered query rest answer world runs reply =>
    obtain ⟨kept, allowed, behind⟩ :=
      sound.running _ runs lane.world .refl sound.world answer world reply
    refine ⟨⟨kept, fun process after => ?_⟩, allowed⟩
    cases after
    exact behind
  | returned runs =>
    exact ⟨⟨sound.world, fun process after => nomatch after⟩, refl _⟩
  | cancelled runs =>
    exact ⟨⟨sound.world, fun process after => nomatch after⟩, refl _⟩

theorem Sound.run (refl : ∀ state, guar state state)
    (stable : Process.Stable moves inv)
    (within : ∀ {first second}, inv first → moves first second → guar first second)
    (keeps : ∀ call {state}, inv state →
      (program call).Keeps moves answers inv guar post state)
    (sound : lane.Sound moves answers inv guar post)
    (reached : Reaches moves answers program lane next) :
    next.Sound moves answers inv guar post := by
  induction reached with
  | refl => exact sound
  | tail _ step ih => exact (Sound.step refl stable within keeps ih step).1

theorem sound_idle {world : S} (start : inv world) :
    (idle world : Lane Q A α S).Sound moves answers inv guar post :=
  ⟨start, fun _ runs => nomatch runs⟩

theorem Sound.ended {value : α} (sound : lane.Sound moves answers inv guar post)
    (runs : lane.running = some (.done value)) : post value lane.world :=
  sound.running _ runs lane.world .refl sound.world

theorem reaches_of_running {process : Process Q A α} {value : α} {world last : S}
    (runs : process.Runs answers world value last) :
    Reaches moves answers program ⟨world, some process⟩ ⟨last, some (.done value)⟩ := by
  induction runs with
  | done value world => exact .refl
  | @ask query next answer world left last value reply _ ih =>
    exact .head (@Step.answered _ _ _ _ _ _ _ _ ⟨world, some (.ask query next)⟩ query next
      answer left rfl reply) ih

/-- Where nothing runs, a process can take the lock and run to its end. -/
theorem reaches_of_runs {call : κ} {value : α} {world last : S}
    (runs : (program call).Runs answers world value last) :
    Reaches moves answers program (idle world) ⟨last, some (.done value)⟩ :=
  .head (.started rfl call) (reaches_of_running runs)

/-- A process that is about to end leaves the lock. -/
theorem reaches_idle {value : α} {world : S} :
    Reaches moves answers program ⟨world, some (.done value)⟩ (idle world) :=
  .single (@Step.returned _ _ _ _ _ _ _ _ ⟨world, some (.done value)⟩ value rfl)

end Lane

end ComputeMarket
