import PowerBoot.Coop.Retired
import PowerBoot.Transfer.Isolation
import PowerBoot.Transfer.Printing

/-! The end of the main program by an error. What reports an error disposes of the main
thread, in the middle of a call, so that no handler of main_func comes to know of it. -/

namespace PowerBoot.Transfer
open Coop

section retired
variable {this : Ptr} {client : Client} {count : Nat} {driven later : Driven (kernel .retro) Thrown Line}

/-- What has happened stays in the log. -/
theorem log_steps {build : Build} : (kernel build).Steps fun before after => before.log <+: after.log where
  exec executed := by
    obtain ⟨events, log, _⟩ := exec_log executed
    exact ⟨events, log.symm⟩
  called {thread entry client after} called := by
    cases entry <;> cases called <;> exact List.prefix_append _ _
  spawned := List.prefix_append _ _
  disposed := List.prefix_append _ _
  exited := List.prefix_append _ _
  returned := List.prefix_append _ _
  threw := List.prefix_append _ _
  environment {input client after} moved := by
    cases input <;> cases moved
    exact List.prefix_refl _

theorem handlers_differ {thrown : Thrown} {found : Bytes × Attributes} : thrown.line ≠ nameLine found := by
  cases thrown <;> simp [Thrown.line, nameLine, fileLine]

theorem starting_differs {thrown : Thrown} {phase : Phase} : thrown.line ∉ phase.opening := by
  cases thrown <;> cases phase <;> simp [Thrown.line, Phase.opening, startingLine]

theorem asked_report {course : Course} {entry : Entry} (asks : course.asks this = some entry) :
    course.phase.report = [] := by
  obtain ⟨phase, dir, done⟩ := course
  cases phase <;> first | rfl | cases asks

/-- Once the main thread has been disposed of, main_func makes no call and prints nothing any
more, and its handlers have printed nothing. -/
theorem program_retired (starts : client.Starts count)
    (reached : (Driven.initial client count (mainFunc .retro this)).Reaches
      (unattended .retro) client.mainThreadId driven)
    (gone : .disposed client.mainThreadId client.mainThreadId ∈ driven.world.state.log)
    (goes : driven.Reaches (unattended .retro) client.mainThreadId later) :
    later.story = driven.story ∧ ∀ thrown : Thrown, thrown.line ∉ printed later.story := by
  obtain ⟨story, code, busy⟩ := reached.retired recounts (body_returns .retro) (by simp [turnings, starts.log])
    starts.main disposes_buries (fun name => by simp [starts.log])
    (fun stepped gone => (log_steps.step (fun _ => List.prefix_refl _) stepped).mem gone) gone goes
  refine ⟨story, fun thrown member => ?_⟩
  have follows := driven_follows starts (reached.trans goes)
  obtain ⟨entry, rest, here⟩ := follows.calls busy
  obtain ⟨course, telling, asks, _⟩ := located follows.tells follows.fitting
  have silent : course.phase.report = [] := asked_report (asks entry rest here)
  rw [(telling.printed_lines follows.fitting).2, silent, List.append_nil, List.mem_append, List.mem_map] at member
  rcases member with opening | ⟨found, _, same⟩
  · exact starting_differs opening
  · exact handlers_differ same.symm

section runs

/-- The directory cannot be opened. -/
def denying : Client := answering 0 ([⟨.init, (0 : Int), 0⟩, ⟨.sessionInit, some 9, 0⟩, ⟨.sessionSetBlocking, (), 0⟩,
  ⟨.sftpOpenEx, none, -31⟩, ⟨.sessionLastError, "no", 0⟩] ++ (accepting.session 0).script)

/-- The main thread is gone while the read thread is at its last yield. -/
def denied : Driven (kernel .retro) Thrown Line :=
  ((Driven.initial denying 1 (mainFunc .retro 0)).play 0 (turns [1, 0]) 88).play 0 (turns [0, 1]) 22

theorem denied_reached : (Driven.initial denying 1 (mainFunc .retro 0)).Reaches (unattended .retro) 0 denied :=
  .play (.play .start turns_allowed) turns_allowed

theorem denied_gone : Event.disposed 0 0 ∈ denied.world.state.log := List.mem_of_getLast? rfl

theorem program_retired_once : (denied.play 0 (turns [1]) 9).story = denied.story ∧
    ∀ thrown : Thrown, thrown.line ∉ printed (denied.play 0 (turns [1]) 9).story :=
  @program_retired 0 denying 1 denied (denied.play 0 (turns [1]) 9) ⟨rfl, Nat.zero_lt_one⟩ denied_reached
    denied_gone (.play .start turns_allowed)

end runs
end retired

end PowerBoot.Transfer
