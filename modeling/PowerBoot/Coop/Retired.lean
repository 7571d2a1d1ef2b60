import PowerBoot.Coop.Driver

/-! The end of a program whose thread is gone. A thread that has disposed of itself did so in
a call, and from there on the program does nothing any more. -/

namespace Coop
namespace Driven
variable {S : Signature} {K : Kernel S} {Thrown Out : Type} {choices : Choices K} {thread : ThreadId}
  {program : Driving K Thrown Out Unit} {history : K.State → List (Turning K)} {fits : S.Entry → K.Value → Prop}
  {gone : ThreadId → K.State → Prop} {start driven next : Driven K Thrown Out}

/-- The thread has stopped in the middle of a call. -/
structure Stuck (thread : ThreadId) (driven : Driven K Thrown Out) : Prop where
  busy : driven.busy = true
  stopped : driven.world.threads[thread]? = some .stopped

/-- Only the thread itself can bring about that it is gone. -/
private theorem acting {world after : World K} {action : Action K} (buries : K.Buries gone)
    (stepped : world.step action = some after) (before : ¬ gone thread world.state) (now : gone thread after.state) :
    ∃ code, world.threads[thread]? = some (.running code) := by
  unfold World.step at stepped
  split at stepped
  · simp only [World.begin, Option.bind_eq_some_iff] at stepped
    obtain ⟨state, called, stepped⟩ := stepped
    split at stepped
    · cases stepped
      exact (before (buries.called called now)).elim
    · split at stepped <;> cases stepped
      exact (before (buries.called called now)).elim
  · split at stepped <;> cases stepped
    exact (before now).elim
  · obtain ⟨state, moved, rfl⟩ := Option.map_eq_some_iff.mp stepped
    exact (before (buries.environment moved now)).elim
  next actor input _ =>
    split at stepped
    next code found =>
      cases code with
      | op o rest =>
        obtain ⟨⟨reply, after⟩, executed, rfl⟩ := Option.map_eq_some_iff.mp stepped
        exact (before (buries.exec executed now)).elim
      | dispose other rest =>
        cases stepped
        obtain ⟨rfl, _⟩ := (buries.disposed now).resolve_right before
        exact ⟨_, found⟩
      | pure value =>
        cases stepped
        exact (before (buries.returned now)).elim
      | throw =>
        cases stepped
        exact (before (buries.threw now)).elim
      | exit =>
        cases stepped
        exact (before (buries.exited now)).elim
      | spawn entry rest =>
        cases stepped
        exact (before (buries.spawned now)).elim
      | yield | loop =>
        cases stepped
        exact (before now).elim
    · cases stepped
  · cases stepped

/-- Nothing but the machine moves once the thread has stopped in a call. -/
theorem Stuck.step {move : Move K Thrown} (stuck : driven.Stuck thread)
    (stepped : driven.step thread move = some next) : next.story = driven.story ∧ next.code = driven.code ∧
      next.busy = true ∧ ∃ action, driven.world.step action = some next.world := by
  cases move with
  | machine action =>
    obtain ⟨_, _, world, moved, rfl⟩ := step_machine stepped
    exact ⟨rfl, rfl, stuck.busy, action, moved⟩
  | program => cases (step_program stepped).1.symm.trans stuck.busy
  | returns input =>
    obtain ⟨_, _, value, found, _⟩ := step_returns stepped
    cases found.symm.trans stuck.stopped
  | throws input thrown =>
    obtain ⟨_, _, found, _⟩ := step_throws stepped
    cases found.symm.trans stuck.stopped

/-- The moves of the program do not bring it about. -/
private theorem program_keeps {move : Move K Thrown} (buries : K.Buries gone)
    (stepped : driven.step thread move = some next) (own : ∀ action, move ≠ .machine action)
    (now : gone thread next.world.state) : gone thread driven.world.state := by
  have leaves {input : K.Input} {reply : Except Thrown K.Value} {code : Code S K.Value}
      (left : driven.leave input reply = some next) (current : driven.world.current = some thread)
      (found : driven.world.threads[thread]? = some (.running code))
      (ends : (∃ value, code = .pure value) ∨ code = .throw) : gone thread driven.world.state := by
    unfold leave at left
    split at left
    · obtain ⟨world, moved, rfl⟩ := Option.map_eq_some_iff.mp left
      simp only [World.step, current, found] at moved
      obtain ⟨value, rfl⟩ | rfl := ends <;> cases moved
      · exact buries.returned now
      · exact buries.threw now
    · cases left
  cases move with
  | machine action => exact (own action rfl).elim
  | program =>
    obtain ⟨_, proceeds⟩ := step_program stepped
    unfold proceed at proceeds
    split at proceeds
    · simp only [Driven.enter, Option.bind_eq_bind, Option.bind_eq_some_iff] at proceeds
      obtain ⟨begun, called, world, resumed, same⟩ := proceeds
      cases same
      obtain ⟨admitted, outside, found⟩ := World.step_call called
      simp only [World.step, outside, found, Option.some.injEq] at resumed
      subst resumed
      exact buries.called admitted now
    · cases proceeds
      exact now
    · split at proceeds <;> cases proceeds
      exact now
    · cases proceeds
      exact now
    · cases proceeds
  | returns input =>
    obtain ⟨_, current, value, found, left⟩ := step_returns stepped
    exact leaves left current found (.inl ⟨value, rfl⟩)
  | throws input thrown =>
    obtain ⟨_, current, found, left⟩ := step_throws stepped
    exact leaves left current found (.inr rfl)

variable {state : K.State} {count : Nat}

theorem Reaches.stuck (reached : Reaches choices thread (.initial state count program) driven)
    (recounts : K.Recounts thread history) (fit : ∀ entry, (K.body entry).GivesOnly (fits entry))
    (empty : history state = []) (inside : thread < count) (buries : K.Buries gone) (alive : ∀ name, ¬ gone name state)
    (now : gone thread driven.world.state) : driven.Stuck thread := by
  have buried := buries.stopped (fun name now => (alive name now).elim)
    (reached.follows recounts fit empty inside).reached thread now
  refine ⟨?_, buried⟩
  induction reached with
  | start => exact (alive _ now).elim
  | @step driven next move before allowed stepped ih =>
    have follows := before.follows recounts fit empty inside
    by_cases earlier : gone thread driven.world.state
    · have stopped := buries.stopped (fun name now => (alive name now).elim) follows.reached thread earlier
      exact (Stuck.step ⟨ih earlier stopped, stopped⟩ stepped).2.2.1
    · cases move with
      | machine action =>
        obtain ⟨_, _, world, moved, rfl⟩ := step_machine stepped
        obtain ⟨code, running⟩ := acting buries moved earlier now
        by_contra free
        exact follows.idle (by simpa using free) code running
      | program | returns | throws => exact (earlier (program_keeps buries stepped nofun now)).elim

/-- Once the thread is gone, the program never does anything again. -/
theorem Reaches.retired {later : Driven K Thrown Out}
    (reached : Reaches choices thread (.initial state count program) driven)
    (recounts : K.Recounts thread history) (fit : ∀ entry, (K.body entry).GivesOnly (fits entry))
    (empty : history state = []) (inside : thread < count) (buries : K.Buries gone) (alive : ∀ name, ¬ gone name state)
    (stays : ∀ {world next : World K} {action : Action K}, world.step action = some next → gone thread world.state →
      gone thread next.state)
    (now : gone thread driven.world.state) (goes : Reaches choices thread driven later) :
    later.story = driven.story ∧ later.code = driven.code ∧ later.busy = true := by
  suffices later.story = driven.story ∧ later.code = driven.code ∧
      Reaches choices thread (.initial state count program) later ∧ gone thread later.world.state by
    obtain ⟨story, code, reached, now⟩ := this
    exact ⟨story, code, (reached.stuck recounts fit empty inside buries alive now).busy⟩
  induction goes with
  | start => exact ⟨rfl, rfl, reached, now⟩
  | step _ allowed stepped ih =>
    obtain ⟨story, code, earlier, gone⟩ := ih
    obtain ⟨same, still, _, action, moved⟩ :=
      (earlier.stuck recounts fit empty inside buries alive gone).step stepped
    exact ⟨same.trans story, still.trans code, earlier.step allowed stepped, stays moved gone⟩

end Driven
end Coop
