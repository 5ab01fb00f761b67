import Mathlib.Logic.Relation

/-!
# Processes that ask a shared world

A process ends with a value or asks a query and goes on with the answer. Between two of its
queries anything may happen in the world that the rely allows, and each of its own queries
changes the world within it too (`Meets`). A pool starts, answers, ends and drops processes in
any order; what each process meets holds of all that have ended (`Pool.sound`).
-/

namespace ComputeMarket

universe u v w

/-- A process over queries `Q`, each answered in `A`, that ends with a value of `α`. -/
inductive Process (Q : Type u) (A : Q → Type v) (α : Type w)
  | done (value : α)
  | ask (query : Q) (next : A query → Process Q A α)

namespace Process

variable {Q : Type u} {A : Q → Type v} {α β : Type w} {S : Type*}

def bind : Process Q A α → (α → Process Q A β) → Process Q A β
  | .done value, rest => rest value
  | .ask query next, rest => .ask query fun answer => (next answer).bind rest

instance : Monad (Process Q A) where
  pure := .done
  bind := Process.bind

@[simp] theorem pure_eq (value : α) : (pure value : Process Q A α) = .done value := rfl

@[simp] theorem done_bind (value : α) (rest : α → Process Q A β) :
    (Process.done value >>= rest) = rest value := rfl

@[simp] theorem ask_bind (query : Q) (next : A query → Process Q A α) (rest : α → Process Q A β) :
    (Process.ask query next >>= rest) = .ask query fun answer => next answer >>= rest := rfl

variable {rest : α → Process Q A β} {first process : Process Q A α}

def Asks (allowed : Q → Prop) : Process Q A α → Prop
  | .done _ => True
  | .ask query next => allowed query ∧ ∀ answer, (next answer).Asks allowed

theorem Asks.bind {allowed : Q → Prop} (asks : first.Asks allowed)
    (behind : ∀ value, (rest value).Asks allowed) :
    (first >>= rest).Asks allowed := by
  induction first with
  | done value => exact behind value
  | ask query next ih => exact ⟨asks.1, fun answer => ih answer (asks.2 answer)⟩

theorem Asks.mono {allowed allowed' : Q → Prop} (asks : process.Asks allowed)
    (weaker : ∀ query, allowed query → allowed' query) :
    process.Asks allowed' := by
  induction process with
  | done value => trivial
  | ask query next ih => exact ⟨weaker query asks.1, fun answer => ih answer (asks.2 answer)⟩

/-! ## What a process meets -/

variable {value : α} {last : S}

/-- The process ends only with values, and in worlds, that meet the postcondition, and each of
its own steps is one that the others rely on. -/
def Meets (rely : S → S → Prop) (answers : (query : Q) → S → A query → S → Prop)
    (post : α → S → Prop) : Process Q A α → S → Prop
  | .done value, world => ∀ later, rely world later → post value later
  | .ask query next, world => ∀ later, rely world later → ∀ answer left,
      answers query later answer left → rely later left ∧ (next answer).Meets rely answers post left

variable {rely : S → S → Prop} {answers : (query : Q) → S → A query → S → Prop}
  {post post' : α → S → Prop} {world : S}

theorem Meets.of_rely {later : S} (meets : process.Meets rely answers post world)
    (trans : ∀ {first second third}, rely first second → rely second third → rely first third)
    (moved : rely world later) : process.Meets rely answers post later := by
  cases process with
  | done value => exact fun last onward => meets last (trans moved onward)
  | ask query next => exact fun last onward => meets last (trans moved onward)

theorem Meets.mono (meets : process.Meets rely answers post world)
    (trans : ∀ {first second third}, rely first second → rely second third → rely first third)
    (weaker : ∀ value state, rely world state → post value state → post' value state) :
    process.Meets rely answers post' world := by
  induction process generalizing world with
  | done value => exact fun last onward => weaker _ _ onward (meets last onward)
  | ask query next ih =>
    intro last onward answer left answered
    obtain ⟨within, rest⟩ := meets last onward answer left answered
    refine ⟨within, ih answer rest fun value state further => ?_⟩
    exact weaker value state (trans (trans onward within) further)

/-- A sequence meets what its second part meets behind its first. -/
theorem Meets.bind (refl : ∀ state, rely state state) {post : β → S → Prop}
    (meets : first.Meets rely answers
      (fun value state => (rest value).Meets rely answers post state) world) :
    (first >>= rest).Meets rely answers post world := by
  induction first generalizing world with
  | done value => exact meets world (refl world)
  | ask query next ih =>
    intro last onward answer left answered
    obtain ⟨within, behind⟩ := meets last onward answer left answered
    exact ⟨within, ih answer behind⟩

inductive Runs (answers : (query : Q) → S → A query → S → Prop) :
    Process Q A α → S → α → S → Prop
  | done (value : α) (world : S) : Runs answers (.done value) world value world
  | ask {query : Q} {next : A query → Process Q A α} {answer : A query} {world left last : S}
      {value : α} (reply : answers query world answer left)
      (rest : Runs answers (next answer) left value last) :
      Runs answers (.ask query next) world value last

theorem Runs.bind {result : β} {middle : S} (runs : first.Runs answers world value middle)
    (behind : (rest value).Runs answers middle result last) :
    (first >>= rest).Runs answers world result last := by
  induction runs with
  | done value world => exact behind
  | ask reply _ ih => exact .ask reply (ih behind)

inductive Leads (answers : (query : Q) → S → A query → S → Prop) :
    Process Q A α → S → Process Q A α → S → Prop
  | here (process : Process Q A α) (world : S) : Leads answers process world process world
  | ask {query : Q} {next : A query → Process Q A α} {answer : A query} {world left last : S}
      {later : Process Q A α} (reply : answers query world answer left)
      (rest : Leads answers (next answer) left later last) :
      Leads answers (.ask query next) world later last

theorem Leads.runs {later : Process Q A α} {middle : S}
    (leads : process.Leads answers world later middle)
    (runs : later.Runs answers middle value last) :
    process.Runs answers world value last := by
  induction leads with
  | here process world => exact runs
  | ask reply _ ih => exact .ask reply (ih runs)

def Ends (answers : (query : Q) → S → A query → S → Prop) (post : α → S → Prop) :
    Process Q A α → S → Prop
  | .done value, world => post value world
  | .ask query next, world => ∀ answer left, answers query world answer left →
      (next answer).Ends answers post left

theorem Ends.bind {post : β → S → Prop}
    (ends : first.Ends answers (fun value state => (rest value).Ends answers post state) world) :
    (first >>= rest).Ends answers post world := by
  induction first generalizing world with
  | done value => exact ends
  | ask query next ih => exact fun answer left answered => ih answer (ends answer left answered)

theorem Ends.mono (ends : process.Ends answers post world)
    (weaker : ∀ value state, post value state → post' value state) :
    process.Ends answers post' world := by
  induction process generalizing world with
  | done value => exact weaker value world ends
  | ask query next ih => exact fun answer left answered => ih answer (ends answer left answered)

theorem Runs.ends (runs : process.Runs answers world value last)
    (meets : process.Ends answers post world) :
    post value last := by
  induction runs with
  | done value world => exact meets
  | ask reply _ ih => exact ih (meets _ _ reply)

/-- Where every query has an answer, the process can run alone to its end. -/
theorem exists_runs (answered : ∀ query world, ∃ answer left, answers query world answer left)
    (process : Process Q A α) (world : S) :
    ∃ value last, process.Runs answers world value last := by
  induction process generalizing world with
  | done value => exact ⟨value, world, .done value world⟩
  | ask query next ih =>
    obtain ⟨answer, left, reply⟩ := answered query world
    obtain ⟨value, last, runs⟩ := ih answer left
    exact ⟨value, last, .ask reply runs⟩

end Process

abbrev Raising (Q : Type u) (A : Q → Type v) (ε α : Type w) : Type (max u v w) :=
  ExceptT ε (Process Q A) α

namespace Raising

variable {Q : Type u} {A : Q → Type v} {ε α β : Type w} {S : Type*}
  {rely : S → S → Prop} {answers : (query : Q) → S → A query → S → Prop} {world : S}

def Meets (rely : S → S → Prop) (answers : (query : Q) → S → A query → S → Prop)
    (post : α → S → Prop) (process : Raising Q A ε α) (world : S) : Prop :=
  Process.Meets rely answers (fun result state => ∀ value, result = .ok value → post value state)
    process.run world

theorem Meets.pure {post : α → S → Prop} {value : α}
    (met : ∀ later, rely world later → post value later) :
    Meets rely answers post (Pure.pure value : Raising Q A ε α) world := by
  rintro later onward _ ⟨⟩
  exact met later onward

theorem Meets.throw {post : α → S → Prop} (error : ε) :
    Meets rely answers post (MonadExcept.throw error : Raising Q A ε α) world := by
  rintro later onward _ ⟨⟩

theorem Meets.bind {first : Raising Q A ε α} {rest : α → Raising Q A ε β} {mid : α → S → Prop}
    {post : β → S → Prop} (refl : ∀ state, rely state state)
    (trans : ∀ {first second third}, rely first second → rely second third → rely first third)
    (meets : Meets rely answers mid first world)
    (behind : ∀ value state, rely world state → mid value state →
      Meets rely answers post (rest value) state) :
    Meets rely answers post (first >>= rest) world := by
  refine Process.Meets.bind refl (Process.Meets.mono meets trans fun result state onward met => ?_)
  cases result with
  | error raised => rintro later _ _ ⟨⟩
  | ok value => exact behind value state onward (met value rfl)

end Raising

/-! ## Pools -/

structure Pool (Q : Type u) (A : Q → Type v) (κ : Type*) (ρ : κ → Type w) (S : Type*) where
  world : S
  running : List (Σ call : κ, Process Q A (ρ call))
  ended : List (Σ call : κ, ρ call)

namespace Pool

variable {Q : Type u} {A : Q → Type v} {κ : Type*} {ρ : κ → Type w} {S : Type*}

inductive Step (moves : S → S → Prop) (answers : (query : Q) → S → A query → S → Prop)
    (program : (call : κ) → Process Q A (ρ call)) : Pool Q A κ ρ S → Pool Q A κ ρ S → Prop
  /-- The world moves by itself. -/
  | moved {pool : Pool Q A κ ρ S} {world : S} (onward : moves pool.world world) :
      Step moves answers program pool { pool with world := world }
  | started {pool : Pool Q A κ ρ S} (call : κ) :
      Step moves answers program pool
        { pool with running := pool.running ++ [⟨call, program call⟩] }
  | answered {pool : Pool Q A κ ρ S} {before behind : List (Σ call : κ, Process Q A (ρ call))}
      {call : κ} {query : Q} {next : A query → Process Q A (ρ call)} {answer : A query} {world : S}
      (runs : pool.running = before ++ ⟨call, .ask query next⟩ :: behind)
      (reply : answers query pool.world answer world) :
      Step moves answers program pool
        { pool with world := world, running := before ++ ⟨call, next answer⟩ :: behind }
  | returned {pool : Pool Q A κ ρ S} {before behind : List (Σ call : κ, Process Q A (ρ call))}
      {call : κ} {value : ρ call} (runs : pool.running = before ++ ⟨call, .done value⟩ :: behind) :
      Step moves answers program pool
        { pool with running := before ++ behind, ended := pool.ended ++ [⟨call, value⟩] }
  /-- A process is cancelled, or lost in a restart. -/
  | dropped {pool : Pool Q A κ ρ S} {before behind : List (Σ call : κ, Process Q A (ρ call))}
      {process : Σ call : κ, Process Q A (ρ call)}
      (runs : pool.running = before ++ process :: behind) :
      Step moves answers program pool { pool with running := before ++ behind }

def idle (world : S) : Pool Q A κ ρ S := ⟨world, [], []⟩

abbrev Reaches (moves : S → S → Prop) (answers : (query : Q) → S → A query → S → Prop)
    (program : (call : κ) → Process Q A (ρ call)) : Pool Q A κ ρ S → Pool Q A κ ρ S → Prop :=
  Relation.ReflTransGen (Step moves answers program)

/-- Every process meets its postcondition from here on, and every value met it when its process
ended. -/
structure Sound (rely : S → S → Prop) (answers : (query : Q) → S → A query → S → Prop)
    (post : (call : κ) → ρ call → S → Prop) (pool : Pool Q A κ ρ S) : Prop where
  running : ∀ process ∈ pool.running,
    process.2.Meets rely answers (post process.1) pool.world
  ended : ∀ value ∈ pool.ended, ∃ state, rely state pool.world ∧ post value.1 value.2 state

variable {moves rely : S → S → Prop} {answers : (query : Q) → S → A query → S → Prop}
  {program : (call : κ) → Process Q A (ρ call)} {post : (call : κ) → ρ call → S → Prop}
  {start pool next : Pool Q A κ ρ S}

/-- One step keeps a pool sound and moves its world within the rely. -/
theorem Sound.step (refl : ∀ state, rely state state)
    (trans : ∀ {first second third}, rely first second → rely second third → rely first third)
    (within : ∀ {first second}, moves first second → rely first second)
    (meets : ∀ call, (program call).Meets rely answers (post call) pool.world)
    (sound : pool.Sound rely answers post) (step : Step moves answers program pool next) :
    next.Sound rely answers post ∧ rely pool.world next.world := by
  cases step with
  | moved moved =>
    have onward := within moved
    refine ⟨⟨fun process among => ?_, fun value among => ?_⟩, onward⟩
    · have earlier := sound.running process among
      exact earlier.of_rely trans onward
    · obtain ⟨state, earlier, met⟩ := sound.ended value among
      exact ⟨state, trans earlier onward, met⟩
  | started call =>
    refine ⟨⟨fun process among => ?_, sound.ended⟩, refl _⟩
    rcases List.mem_append.mp among with old | new
    · exact sound.running process old
    · cases List.mem_singleton.mp new
      exact meets call
  | @answered before behind call query rest answer world runs answered =>
    have here := sound.running ⟨call, .ask query rest⟩
      (by rw [runs]; exact List.mem_append_right _ List.mem_cons_self)
    obtain ⟨onward, later⟩ := here pool.world (refl _) answer world answered
    refine ⟨⟨fun process among => ?_, fun value among => ?_⟩, onward⟩
    · rcases List.mem_append.mp among with old | new
      · have earlier := sound.running process (runs ▸ List.mem_append_left _ old)
        exact earlier.of_rely trans onward
      · rcases List.mem_cons.mp new with rfl | old
        · exact later
        · have earlier := sound.running process
            (runs ▸ List.mem_append_right _ (List.mem_cons_of_mem _ old))
          exact earlier.of_rely trans onward
    · obtain ⟨state, earlier, met⟩ := sound.ended value among
      exact ⟨state, trans earlier onward, met⟩
  | @returned before behind call value runs =>
    have here := sound.running ⟨call, .done value⟩
      (by rw [runs]; exact List.mem_append_right _ List.mem_cons_self)
    refine ⟨⟨fun process among => ?_, fun other among => ?_⟩, refl _⟩
    · rcases List.mem_append.mp among with old | old
      · exact sound.running process (runs ▸ List.mem_append_left _ old)
      · exact sound.running process
          (runs ▸ List.mem_append_right _ (List.mem_cons_of_mem _ old))
    · rcases List.mem_append.mp among with old | new
      · exact sound.ended other old
      · cases List.mem_singleton.mp new
        exact ⟨pool.world, refl _, here pool.world (refl _)⟩
  | @dropped before behind process runs =>
    refine ⟨⟨fun other among => ?_, sound.ended⟩, refl _⟩
    rcases List.mem_append.mp among with old | old
    · exact sound.running other (runs ▸ List.mem_append_left _ old)
    · exact sound.running other (runs ▸ List.mem_append_right _ (List.mem_cons_of_mem _ old))

/-- What every process meets in any world that can be reached holds of all that have ended. -/
theorem sound (refl : ∀ state, rely state state)
    (trans : ∀ {first second third}, rely first second → rely second third → rely first third)
    (within : ∀ {first second}, moves first second → rely first second) {world : S}
    (meets : ∀ call state, rely world state →
      (program call).Meets rely answers (post call) state)
    (reached : Reaches moves answers program (idle world) pool) :
    pool.Sound rely answers post ∧ rely world pool.world := by
  induction reached with
  | refl =>
    exact ⟨⟨fun _ among => absurd among List.not_mem_nil,
      fun _ among => absurd among List.not_mem_nil⟩, refl _⟩
  | tail _ step ih =>
    obtain ⟨earlier, onward⟩ := ih
    obtain ⟨now, further⟩ := earlier.step refl trans within
      (fun call => meets call _ onward) step
    exact ⟨now, trans onward further⟩

theorem reaches_of_leads {call : κ} {process later : Process Q A (ρ call)} {world last : S}
    {before behind : List (Σ call : κ, Process Q A (ρ call))} {ended : List (Σ call : κ, ρ call)}
    (leads : process.Leads answers world later last) :
    Reaches moves answers program ⟨world, before ++ ⟨call, process⟩ :: behind, ended⟩
      ⟨last, before ++ ⟨call, later⟩ :: behind, ended⟩ := by
  induction leads with
  | here process world => exact .refl
  | @ask query next answer world left last later reply _ ih =>
    exact .head (@Step.answered _ _ _ _ _ _ _ _
      ⟨world, before ++ ⟨call, .ask query next⟩ :: behind, ended⟩ before behind call query next
      answer left rfl reply) ih

/-- While the others wait, a process can run to its end. -/
theorem reaches_of_running {call : κ} {process : Process Q A (ρ call)} {value : ρ call}
    {world last : S} {before behind : List (Σ call : κ, Process Q A (ρ call))}
    {ended : List (Σ call : κ, ρ call)} (runs : process.Runs answers world value last) :
    Reaches moves answers program ⟨world, before ++ ⟨call, process⟩ :: behind, ended⟩
      ⟨last, before ++ behind, ended ++ [⟨call, value⟩]⟩ := by
  induction runs with
  | done value world =>
    exact .single (@Step.returned _ _ _ _ _ _ _ _
      ⟨world, before ++ ⟨call, .done value⟩ :: behind, ended⟩ before behind call value rfl)
  | @ask query next answer world left last value reply _ ih =>
    exact .head (@Step.answered _ _ _ _ _ _ _ _
      ⟨world, before ++ ⟨call, .ask query next⟩ :: behind, ended⟩ before behind call query next
      answer left rfl reply) ih

/-- Where nothing else runs, a call can be started, run alone and end. -/
theorem reaches_of_runs {call : κ} {value : ρ call} {world last : S}
    {ended : List (Σ call : κ, ρ call)}
    (runs : (program call).Runs answers world value last) :
    Reaches moves answers program ⟨world, [], ended⟩ ⟨last, [], ended ++ [⟨call, value⟩]⟩ :=
  .head (.started call) (@reaches_of_running _ _ _ _ _ _ _ _ _ _ _ _ _ [] [] _ runs)

end Pool

end ComputeMarket
