import PowerBoot.Coop.Code

/-! Worlds of cooperative threads. One thread at a time is inside a section and
executes its operations; at a yield the section ends, and any thread that is
ready, a new call or the environment may go on. -/

namespace Coop
variable {S : Signature}

/-- A machine: what the operations do to the shared state, what the threads run
and what the state records about the life of the threads. An operation that
answers `none` is not possible with that input. -/
structure Kernel (S : Signature) where
  State : Type
  Input : Type
  Value : Type
  body : S.Entry → Code S Value
  exec : ThreadId → (o : S.Op) → Input → State → Option (S.Reply o × State)
  called : ThreadId → S.Entry → State → Option State
  spawned : ThreadId → ThreadId → S.Entry → State → State
  disposed : ThreadId → ThreadId → State → State
  exited : ThreadId → State → State
  returned : ThreadId → Value → State → State
  threw : ThreadId → State → State
  environment : Input → State → Option State

inductive Activity (K : Kernel S) where
  | idle
  | running (code : Code S K.Value)
  | stopped

structure World (K : Kernel S) where
  state : K.State
  threads : List (Activity K)
  current : Option ThreadId := none

inductive Action (K : Kernel S) where
  | call (thread : ThreadId) (entry : S.Entry)
  | resume (thread : ThreadId)
  | continue (input : K.Input)
  | environment (input : K.Input)

namespace World
variable {K : Kernel S}

/-- The actions by which `thread` runs alone, one section after the other, each with
the inputs of its steps. -/
def alone (thread : ThreadId) (sections : List (List K.Input)) : List (Action K) :=
  sections.flatMap fun inputs => .resume thread :: inputs.map .continue

def initial (state : K.State) (count : Nat) : World K :=
  { state, threads := List.replicate count .idle }

/-- The next operation of the thread that is inside its section. -/
def advance (actor : ThreadId) (input : K.Input) (world : World K) : Code S K.Value → Option (World K)
  | .pure value => some { state := K.returned actor value world.state, threads := world.threads.set actor .idle }
  | .throw => some { state := K.threw actor world.state, threads := world.threads.set actor .idle }
  | .exit => some { state := K.exited actor world.state, threads := world.threads.map fun _ => .stopped }
  | .op o next => (K.exec actor o input world.state).map fun (reply, state) =>
    { world with state, threads := world.threads.set actor (.running (next reply)) }
  | .yield next => some { world with threads := world.threads.set actor (.running next), current := none }
  | .spawn entry next =>
    let child := world.threads.length
    some { world with
      state := K.spawned actor child entry world.state
      threads := world.threads.set actor (.running (next child)) ++ [.running (K.body entry)] }
  | .dispose thread next =>
    some { state := K.disposed actor thread world.state
           threads := (world.threads.set actor (.running next)).set thread .stopped
           current := if thread = actor then none else some actor }
  | .loop body state next =>
    some { world with threads := world.threads.set actor (.running ((body state).bind (.turn body next))) }

/-- A call is made on an idle thread or on a new one. -/
def begin (thread : ThreadId) (entry : S.Entry) (world : World K) : Option (World K) :=
  (K.called thread entry world.state).bind fun state =>
    if thread = world.threads.length then
      some { world with state, threads := world.threads ++ [.running (K.body entry)] }
    else match world.threads[thread]? with
      | some .idle => some { world with state, threads := world.threads.set thread (.running (K.body entry)) }
      | _ => none

def step (action : Action K) (world : World K) : Option (World K) :=
  match world.current, action with
  | none, .call thread entry => begin thread entry world
  | none, .resume thread =>
    match world.threads[thread]? with
    | some (.running _) => some { world with current := some thread }
    | _ => none
  | none, .environment input => (K.environment input world.state).map fun state => { world with state }
  | some actor, .continue input =>
    match world.threads[actor]? with
    | some (.running code) => advance actor input world code
    | _ => none
  | _, _ => none

def run : List (Action K) → World K → Option (World K)
  | [], world => some world
  | action :: rest, world => do run rest (← step action world)

/-- What a call does to the world, and the code its thread is left with. -/
theorem step_call {thread : ThreadId} {entry : S.Entry} {world begun : World K}
    (stepped : world.step (.call thread entry) = some begun) :
    K.called thread entry world.state = some begun.state ∧ begun.current = none ∧
      begun.threads[thread]? = some (.running (K.body entry)) := by
  cases outside : world.current with
  | some actor => simp [step, outside] at stepped
  | none =>
    simp only [step, outside, begin, Option.bind_eq_some_iff] at stepped
    obtain ⟨state, admitted, stepped⟩ := stepped
    split at stepped
    next new =>
      cases stepped
      exact ⟨admitted, rfl, by simp [new]⟩
    · split at stepped
      next found =>
        cases stepped
        exact ⟨admitted, rfl, List.getElem?_set_self (List.getElem?_eq_some_iff.mp found).1⟩
      · cases stepped

theorem alone_actions {thread : ThreadId} {sections : List (List K.Input)} {action : Action K}
    (member : action ∈ alone thread sections) : action = .resume thread ∨ ∃ input, action = .continue input := by
  simp only [alone, List.mem_flatMap, List.mem_cons, List.mem_map] at member
  obtain ⟨inputs, _, rfl | ⟨input, _, rfl⟩⟩ := member
  · exact Or.inl rfl
  · exact Or.inr ⟨input, rfl⟩

/-- A run whose actions all pass a test. -/
def runWhere (test : Action K → World K → Bool) : List (Action K) → World K → Option (World K)
  | [], world => some world
  | action :: rest, world => if test action world then (step action world).bind (runWhere test rest) else none

/-- The world after a run; a run that is not possible changes nothing. -/
def after (actions : List (Action K)) (world : World K) : World K := (run actions world).getD world

end World

/-- What a run may choose: the answer to an operation, a call from outside and a
move of the environment. -/
structure Choices (K : Kernel S) where
  answers : ThreadId → S.Op → K.Input → K.State → Prop
  calls : ThreadId → S.Entry → K.State → Prop
  moves : K.Input → K.State → Prop

namespace Choices
variable {K : Kernel S} (choices : Choices K)

def all (K : Kernel S) : Choices K :=
  { answers := fun _ _ _ _ => True, calls := fun _ _ _ => True, moves := fun _ _ => True }

/-- The choices, where it is known what an operation does. -/
def keeping (step : ThreadId → K.State → K.State → Prop) : Choices K :=
  { choices with answers := fun actor o input state => choices.answers actor o input state ∧
      ∀ reply after, K.exec actor o input state = some (reply, after) → step actor state after }

def Allows (action : Action K) (world : World K) : Prop :=
  match action with
  | .call thread entry => choices.calls thread entry world.state
  | .resume _ => True
  | .continue input => ∀ actor o next, world.current = some actor →
      world.threads[actor]? = some (.running (.op o next)) → choices.answers actor o input world.state
  | .environment input => choices.moves input world.state

/-- The worlds reached by runs whose steps all keep to the choices. -/
inductive Reaches (start : World K) : World K → Prop where
  | start : Reaches start start
  | step {world next : World K} {action : Action K} (before : Reaches start world)
      (allowed : choices.Allows action world) (stepped : world.step action = some next) : Reaches start next

theorem Reaches.trans {first middle last : World K} (before : choices.Reaches first middle)
    (after : choices.Reaches middle last) : choices.Reaches first last := by
  induction after with
  | start => exact before
  | step _ allowed stepped ih => exact .step ih allowed stepped

theorem all_allows (action : Action K) (world : World K) : (all K).Allows action world := by
  cases action <;> simp [Allows, all]

theorem Reaches.mono {more : Choices K} (wider : ∀ action world, choices.Allows action world → more.Allows action world)
    {start world : World K} (reached : choices.Reaches start world) : more.Reaches start world := by
  induction reached with
  | start => exact .start
  | step _ allowed stepped ih => exact .step ih (wider _ _ allowed) stepped

theorem Reaches.widen {start world : World K} (reached : choices.Reaches start world) :
    (Choices.all K).Reaches start world := reached.mono _ fun action world _ => all_allows action world

/-- A run of which only the first action has to be looked at reaches its last world. -/
theorem Reaches.afterwards {action : Action K} {actions : List (Action K)} {world : World K}
    (first : choices.Allows action world) (free : ∀ action ∈ actions, ∀ world, choices.Allows action world) :
    choices.Reaches world (world.after (action :: actions)) := by
  suffices ∀ last, world.run (action :: actions) = some last → choices.Reaches world last by
    cases ran : world.run (action :: actions) with
    | none =>
      rw [World.after, ran]
      exact .start
    | some last =>
      rw [World.after, ran]
      exact this last ran
  intro last ran
  simp only [World.run, Option.bind_eq_bind, Option.bind_eq_some_iff] at ran
  obtain ⟨next, stepped, ran⟩ := ran
  refine (Reaches.step .start first stepped).trans _ ?_
  clear first stepped
  induction actions generalizing next with
  | nil =>
    cases ran
    exact .start
  | cons action actions ih =>
    simp only [World.run, Option.bind_eq_bind, Option.bind_eq_some_iff] at ran
    obtain ⟨middle, stepped, ran⟩ := ran
    have later := ih (fun action member => free action (List.mem_cons_of_mem _ member)) middle ran
    exact (Reaches.step .start (free action (List.mem_cons_self ..) next) stepped).trans _ later

theorem Reaches.passing {test : Action K → World K → Bool} (sound : ∀ action world, test action world = true →
    choices.Allows action world) {actions : List (Action K)} {first last : World K}
    (ran : first.runWhere test actions = some last) : choices.Reaches first last := by
  induction actions generalizing first with
  | nil =>
    cases ran
    exact .start
  | cons action actions ih =>
    rw [World.runWhere] at ran
    split at ran
    next passed =>
      obtain ⟨next, stepped, ran⟩ := Option.bind_eq_some_iff.mp ran
      exact (Reaches.step .start (sound action first passed) stepped).trans _ (ih ran)
    · cases ran

theorem Reaches.tested {test : Action K → World K → Bool} (sound : ∀ action world, test action world = true →
    choices.Allows action world) {actions : List (Action K)} {first : World K}
    (passed : (first.runWhere test actions).isSome = true) : choices.Reaches first (first.after actions) := by
  obtain ⟨last, ran⟩ := Option.isSome_iff_exists.mp passed
  suffices first.run actions = some last by
    rw [World.after, this]
    exact .passing choices sound ran
  clear passed
  induction actions generalizing first with
  | nil => exact ran
  | cons action actions ih =>
    rw [World.runWhere] at ran
    split at ran
    · obtain ⟨next, stepped, ran⟩ := Option.bind_eq_some_iff.mp ran
      exact (congrArg (·.bind (World.run actions)) stepped).trans (ih ran)
    · cases ran

theorem Reaches.after {actions : List (Action K)} {world : World K} : (all K).Reaches world (world.after actions) := by
  cases actions with
  | nil => exact .start
  | cons action actions => exact .afterwards _ (all_allows action world) fun action _ => all_allows action

end Choices
end Coop
