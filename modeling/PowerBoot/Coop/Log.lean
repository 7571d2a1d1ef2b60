import Mathlib.Data.List.Basic
import PowerBoot.Coop.World

/-! Facts about whole runs: what every move keeps to, and logs in which each event is
judged with the events before it. -/

namespace Coop

/-- Every move of the machine relates the state before it to the state after it. -/
structure Kernel.Steps {S : Signature} (K : Kernel S) (related : K.State → K.State → Prop) : Prop where
  exec : ∀ {thread o input state reply after}, K.exec thread o input state = some (reply, after) → related state after
  called : ∀ {thread entry state after}, K.called thread entry state = some after → related state after
  spawned : ∀ {thread child entry state}, related state (K.spawned thread child entry state)
  disposed : ∀ {thread other state}, related state (K.disposed thread other state)
  exited : ∀ {thread state}, related state (K.exited thread state)
  returned : ∀ {thread value state}, related state (K.returned thread value state)
  threw : ∀ {thread state}, related state (K.threw thread state)
  environment : ∀ {input state after}, K.environment input state = some after → related state after

namespace Kernel.Steps
variable {S : Signature} {K : Kernel S} {related : K.State → K.State → Prop}

theorem step (steps : K.Steps related) (refl : ∀ state, related state state) {world next : World K} {action : Action K}
    (stepped : world.step action = some next) : related world.state next.state := by
  unfold World.step at stepped
  split at stepped
  · simp only [World.begin, Option.bind_eq_some_iff] at stepped
    obtain ⟨state, called, stepped⟩ := stepped
    split at stepped
    · cases stepped
      exact steps.called called
    · split at stepped <;> cases stepped
      exact steps.called called
  · split at stepped <;> cases stepped
    exact refl _
  · obtain ⟨state, moved, rfl⟩ := Option.map_eq_some_iff.mp stepped
    exact steps.environment moved
  · split at stepped
    next code _ =>
      cases code with
      | op o next =>
        obtain ⟨⟨reply, after⟩, executed, rfl⟩ := Option.map_eq_some_iff.mp stepped
        exact steps.exec executed
      | pure value =>
        cases stepped
        exact steps.returned
      | throw =>
        cases stepped
        exact steps.threw
      | exit =>
        cases stepped
        exact steps.exited
      | spawn entry next =>
        cases stepped
        exact steps.spawned
      | dispose thread next =>
        cases stepped
        exact steps.disposed
      | yield | loop =>
        cases stepped
        exact refl _
    · cases stepped
  · cases stepped

/-- What every move keeps to, whole runs keep to. -/
theorem reaches (steps : K.Steps related) (refl : ∀ state, related state state)
    (trans : ∀ {first middle last}, related first middle → related middle last → related first last)
    {choices : Choices K} {first last : World K} (reached : choices.Reaches first last) :
    related first.state last.state := by
  induction reached with
  | start => exact refl _
  | step _ _ stepped ih => exact trans ih (steps.step refl stepped)

end Kernel.Steps

/-- The state tells of some threads that they run: those that a call or another thread has
started, up to their end. -/
structure Kernel.Tells {S : Signature} (K : Kernel S) (active : ThreadId → K.State → Prop) : Prop where
  exec : ∀ {thread o input state reply after name}, K.exec thread o input state = some (reply, after) →
    active name after → active name state
  called : ∀ {thread entry state after name}, K.called thread entry state = some after → active name after →
    name = thread ∨ active name state
  spawned : ∀ {thread child entry state name}, active name (K.spawned thread child entry state) →
    name = child ∨ active name state
  disposed : ∀ {thread other state name}, active name (K.disposed thread other state) → name ≠ other ∧ active name state
  exited : ∀ {thread state name}, ¬ active name (K.exited thread state)
  returned : ∀ {thread value state name}, active name (K.returned thread value state) → name ≠ thread ∧
    active name state
  threw : ∀ {thread state name}, active name (K.threw thread state) → name ≠ thread ∧ active name state
  environment : ∀ {input state after name}, K.environment input state = some after → active name after →
    active name state

/-- The thread has code left to run. -/
def World.Running {S : Signature} {K : Kernel S} (world : World K) (name : ThreadId) : Prop :=
  ∃ code, world.threads[name]? = some (.running code)

namespace Kernel.Tells
variable {S : Signature} {K : Kernel S} {active : ThreadId → K.State → Prop} {world next : World K} {name : ThreadId}

private theorem set_running {threads : List (Activity K)} {actor : ThreadId} {mine : Code S K.Value}
    (inside : actor < threads.length) (before : ∃ code, threads[name]? = some (.running code)) :
    ∃ code, (threads.set actor (.running mine))[name]? = some (.running code) := by
  by_cases same : actor = name
  · subst same
    exact ⟨mine, List.getElem?_set_self inside⟩
  · rwa [List.getElem?_set_ne same]

private theorem push_running {threads : List (Activity K)} {new : Activity K}
    (before : ∃ code, threads[name]? = some (.running code)) :
    ∃ code, (threads ++ [new])[name]? = some (.running code) := by
  obtain ⟨code, running⟩ := before
  exact ⟨code, by rw [List.getElem?_append_left (List.getElem?_eq_some_iff.mp running).1, running]⟩

private theorem advance {actor : ThreadId} {input : K.Input} {code : Code S K.Value} (tells : K.Tells active)
    (found : world.threads[actor]? = some (.running code)) (stepped : world.advance actor input code = some next)
    (before : ∀ name, active name world.state → world.Running name) (now : active name next.state) :
      next.Running name := by
  have inside := (List.getElem?_eq_some_iff.mp found).1
  cases code with
  | op o rest =>
    obtain ⟨⟨reply, after⟩, executed, rfl⟩ := Option.map_eq_some_iff.mp stepped
    exact set_running inside (before name (tells.exec executed now))
  | pure value =>
    cases stepped
    obtain ⟨other, earlier⟩ := tells.returned now
    rw [World.Running, List.getElem?_set_ne other.symm]
    exact before name earlier
  | throw =>
    cases stepped
    obtain ⟨other, earlier⟩ := tells.threw now
    rw [World.Running, List.getElem?_set_ne other.symm]
    exact before name earlier
  | exit =>
    cases stepped
    exact (tells.exited now).elim
  | spawn entry rest =>
    cases stepped
    rcases tells.spawned now with rfl | earlier
    · exact ⟨K.body entry, by simp⟩
    · exact push_running (set_running inside (before name earlier))
  | dispose thread rest =>
    cases stepped
    obtain ⟨other, earlier⟩ := tells.disposed now
    rw [World.Running, List.getElem?_set_ne other.symm]
    exact set_running inside (before name earlier)
  | yield rest | loop body state rest =>
    cases stepped
    exact set_running inside (before name now)

theorem step (tells : K.Tells active) {action : Action K} (stepped : world.step action = some next)
    (before : ∀ name, active name world.state → world.Running name) (now : active name next.state) :
      next.Running name := by
  unfold World.step at stepped
  split at stepped
  next thread entry _ =>
    simp only [World.begin, Option.bind_eq_some_iff] at stepped
    obtain ⟨state, called, stepped⟩ := stepped
    split at stepped
    next new =>
      cases stepped
      rcases tells.called called now with rfl | earlier
      · exact ⟨K.body entry, by simp [new]⟩
      · exact push_running (before name earlier)
    · split at stepped
      next idle =>
        cases stepped
        have inside := (List.getElem?_eq_some_iff.mp idle).1
        rcases tells.called called now with rfl | earlier
        · exact ⟨_, List.getElem?_set_self inside⟩
        · exact set_running inside (before name earlier)
      · cases stepped
  · split at stepped <;> cases stepped
    exact before name now
  · obtain ⟨state, moved, rfl⟩ := Option.map_eq_some_iff.mp stepped
    exact before name (tells.environment moved now)
  · split at stepped
    next found => exact advance tells found stepped before now
    · cases stepped
  · cases stepped

/-- In every run, the threads of which the state tells it do run. -/
theorem running (tells : K.Tells active) {choices : Choices K} {first last : World K}
    (start : ∀ name, active name first.state → first.Running name) (reached : choices.Reaches first last) :
    ∀ name, active name last.state → last.Running name := by
  induction reached with
  | start => exact start
  | step _ _ stepped ih => exact fun name now => tells.step stepped ih now

theorem reaches (tells : K.Tells active) {choices : Choices K} {first last : World K}
    (start : ∀ name, active name first.state → first.Running name) (reached : choices.Reaches first last) :
    Choices.Reaches
      { choices with calls := fun thread entry state => choices.calls thread entry state ∧ ¬ active thread state }
      first last := by
  induction reached with
  | start => exact .start
  | @step world next action before allowed stepped ih =>
    refine .step ih ?_ stepped
    cases action with
    | call thread entry =>
      refine ⟨allowed, fun now => ?_⟩
      obtain ⟨code, running⟩ := tells.running start before thread now
      cases outside : world.current with
      | some => simp [World.step, outside] at stepped
      | none =>
        have inside := (List.getElem?_eq_some_iff.mp running).1
        simp [World.step, outside, World.begin, running, Nat.ne_of_lt inside] at stepped
    | resume | «continue» | environment => exact allowed

end Kernel.Tells

/-- The state tells of some threads that they have disposed of themselves. -/
structure Kernel.Buries {S : Signature} (K : Kernel S) (gone : ThreadId → K.State → Prop) : Prop where
  exec : ∀ {thread o input state reply after name}, K.exec thread o input state = some (reply, after) →
    gone name after → gone name state
  called : ∀ {thread entry state after name}, K.called thread entry state = some after → gone name after →
    gone name state
  spawned : ∀ {thread child entry state name}, gone name (K.spawned thread child entry state) → gone name state
  disposed : ∀ {thread other state name}, gone name (K.disposed thread other state) →
    (name = thread ∧ other = thread) ∨ gone name state
  exited : ∀ {thread state name}, gone name (K.exited thread state) → gone name state
  returned : ∀ {thread value state name}, gone name (K.returned thread value state) → gone name state
  threw : ∀ {thread state name}, gone name (K.threw thread state) → gone name state
  environment : ∀ {input state after name}, K.environment input state = some after → gone name after → gone name state

namespace Kernel.Buries
variable {S : Signature} {K : Kernel S} {gone : ThreadId → K.State → Prop} {world next : World K} {name : ThreadId}

private theorem advance {actor : ThreadId} {input : K.Input} {code : Code S K.Value} (buries : K.Buries gone)
    (found : world.threads[actor]? = some (.running code)) (stepped : world.advance actor input code = some next)
    (before : ∀ name, gone name world.state → world.threads[name]? = some .stopped) (now : gone name next.state) :
    next.threads[name]? = some .stopped := by
  have inside := (List.getElem?_eq_some_iff.mp found).1
  have kept (earlier : gone name world.state) (mine : Activity K) :
      (world.threads.set actor mine)[name]? = some .stopped := by
    have other : actor ≠ name := by
      rintro rfl
      cases found.symm.trans (before actor earlier)
    rw [List.getElem?_set_ne other, before name earlier]
  cases code with
  | op o rest =>
    obtain ⟨⟨reply, after⟩, executed, rfl⟩ := Option.map_eq_some_iff.mp stepped
    exact kept (buries.exec executed now) _
  | pure value =>
    cases stepped
    exact kept (buries.returned now) _
  | throw =>
    cases stepped
    exact kept (buries.threw now) _
  | exit =>
    cases stepped
    rw [List.getElem?_map, before name (buries.exited now), Option.map_some]
  | spawn entry rest =>
    cases stepped
    have stopped := kept (buries.spawned now) (.running (rest world.threads.length))
    rw [List.getElem?_append_left (List.getElem?_eq_some_iff.mp stopped).1, stopped]
  | dispose thread rest =>
    cases stepped
    rw [List.getElem?_set]
    split
    next same =>
      subst same
      rcases buries.disposed now with ⟨rfl, _⟩ | earlier
      · simp [inside]
      · simpa using (List.getElem?_eq_some_iff.mp (before _ earlier)).1
    next other =>
      rcases buries.disposed now with ⟨rfl, rfl⟩ | earlier
      · exact (other rfl).elim
      · exact kept earlier _
  | yield rest | loop body state rest =>
    cases stepped
    exact kept now _

theorem step (buries : K.Buries gone) {action : Action K} (stepped : world.step action = some next)
    (before : ∀ name, gone name world.state → world.threads[name]? = some .stopped) (now : gone name next.state) :
    next.threads[name]? = some .stopped := by
  unfold World.step at stepped
  split at stepped
  next thread entry _ =>
    simp only [World.begin, Option.bind_eq_some_iff] at stepped
    obtain ⟨state, called, stepped⟩ := stepped
    split at stepped
    next new =>
      cases stepped
      have stopped := before name (buries.called called now)
      rw [List.getElem?_append_left (List.getElem?_eq_some_iff.mp stopped).1, stopped]
    · split at stepped
      next idle =>
        cases stepped
        have stopped := before name (buries.called called now)
        have other : thread ≠ name := by
          rintro rfl
          cases idle.symm.trans stopped
        rw [List.getElem?_set_ne other, stopped]
      · cases stepped
  · split at stepped <;> cases stepped
    exact before name now
  · obtain ⟨state, moved, rfl⟩ := Option.map_eq_some_iff.mp stepped
    exact before name (buries.environment moved now)
  · split at stepped
    next found => exact advance buries found stepped before now
    · cases stepped
  · cases stepped

/-- In every run, the threads of which the state tells it have stopped. -/
theorem stopped (buries : K.Buries gone) {choices : Choices K} {first last : World K}
    (start : ∀ name, gone name first.state → first.threads[name]? = some .stopped)
      (reached : choices.Reaches first last) :
    ∀ name, gone name last.state → last.threads[name]? = some .stopped := by
  induction reached with
  | start => exact start
  | step _ _ stepped ih => exact fun name now => buries.step stepped ih now

end Kernel.Buries

section logs
variable {E : Type}

/-- `holds` of every event of the log, given its past. -/
def Throughout (holds : List E → E → Prop) (log : List E) : Prop :=
  ∀ past event rest, log = past ++ event :: rest → holds past event

variable {holds : List E → E → Prop} {log : List E}

theorem Throughout.nil : Throughout holds [] := by
  intro past event rest split
  simp at split

@[simp] theorem throughout_concat {event : E} :
    Throughout holds (log ++ [event]) ↔ Throughout holds log ∧ holds log event := by
  constructor
  · intro all
    refine ⟨fun past found rest split => all past found (rest ++ [event]) (by simp [split]), ?_⟩
    exact all log event [] rfl
  · rintro ⟨all, last⟩ past found rest split
    rcases List.eq_nil_or_concat rest with rfl | ⟨between, final, rfl⟩
    · obtain ⟨rfl, same⟩ := List.append_inj' split rfl
      cases same
      exact last
    · rw [List.concat_eq_append, ← List.cons_append, ← List.append_assoc] at split
      obtain ⟨rfl, _⟩ := List.append_inj' split rfl
      exact all past found between rfl

theorem Throughout.append {more : List E} (all : Throughout holds log)
    (free : ∀ past, ∀ event ∈ more, holds past event) : Throughout holds (log ++ more) := by
  induction more generalizing log with
  | nil => rwa [List.append_nil]
  | cons event more ih =>
    rw [List.append_cons]
    refine ih (throughout_concat.mpr ⟨all, free _ _ (List.mem_cons_self ..)⟩) fun past found member => ?_
    exact free past found (List.mem_cons_of_mem _ member)

end logs
end Coop
