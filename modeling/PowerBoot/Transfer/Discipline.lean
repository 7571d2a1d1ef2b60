import PowerBoot.Transfer.Steps

/-! The rules by which properties of the client are proved over its runs. All of them keep
the log; a property adds its invariant and what it needs the other threads to leave alone. -/

namespace PowerBoot.Transfer
open Coop

/-- The thread that an event is the doing of. -/
def Event.thread : Event → ThreadId
  | .called thread _ | .spawned thread _ _ | .returned thread _ | .threw thread | .disposed thread _ | .exited thread
  | .library thread _ _ _ | .waited thread _ | .reported thread _ _ | .noMessage thread => thread

/-- The threads that an event names as its own or as a new one. -/
def Event.names (name : ThreadId) : Event → Prop
  | .spawned thread child _ => name = thread ∨ name = child
  | event => name = event.thread

/-- The threads a state can mention. -/
def Client.Knows (client : Client) (name : ThreadId) : Prop :=
  name = client.mainThreadId ∨ ∃ event ∈ client.log, event.names name

theorem Op.Logs.thread {thread : ThreadId} {o : Op} {reply : o.Reply} {events : List Event}
    (logs : o.Logs thread reply events) : ∀ event ∈ events, event.thread = thread ∧ ∀ name, event.names name →
      name = thread := by
  intro event member
  cases o with
  | library =>
    obtain ⟨answer, _, rfl⟩ := logs
    cases List.mem_singleton.mp member
    exact ⟨rfl, fun _ same => same⟩
  | waited | report | noMessage =>
    cases (show events = _ from logs)
    cases List.mem_singleton.mp member
    exact ⟨rfl, fun _ same => same⟩
  | _ =>
    cases (show events = _ from logs)
    cases member

section threadIds
variable {thread : ThreadId} {o : Op} {input : Input} {client after : Client} {reply : o.Reply}

theorem exec_mainThreadId (executed : exec thread o input client = some (reply, after)) :
    after.mainThreadId = client.mainThreadId := by
  cases o with
  | library =>
    obtain ⟨answer, script, _, _, rfl⟩ := exec_library.mp executed
    rfl
  | newThread =>
    obtain ⟨_, _, rfl⟩ := exec_newThread executed
    rfl
  | assign | setRc | waited | report | noMessage =>
    cases executed
    rfl
  | _ =>
    obtain rfl := exec_steady executed trivial
    rfl

theorem exec_readThreadId (executed : exec thread o input client = some (reply, after)) (makes : o ≠ .newThread) :
    after.readThreadId = client.readThreadId := by
  cases o with
  | newThread => exact (makes rfl).elim
  | library =>
    obtain ⟨answer, script, _, _, rfl⟩ := exec_library.mp executed
    rfl
  | assign | setRc | waited | report | noMessage =>
    cases executed
    rfl
  | _ =>
    obtain rfl := exec_steady executed trivial
    rfl

end threadIds

/-- The state goes on without `thread`. -/
structure Grows (thread : ThreadId) (before after : Client) : Prop where
  mainThreadId : after.mainThreadId = before.mainThreadId
  log : ∃ more, after.log = before.log ++ more ∧ ∀ event ∈ more, event.thread ≠ thread

namespace Grows
variable {thread other : ThreadId} {first before middle after last : Client}

theorem refl (thread : ThreadId) (client : Client) : Grows thread client client := ⟨rfl, [], by simp, by simp⟩

theorem trans (early : Grows thread first middle) (late : Grows thread middle last) : Grows thread first last := by
  obtain ⟨main, more, log, others⟩ := early
  obtain ⟨same, later, extended, rest⟩ := late
  refine ⟨same.trans main, more ++ later, by rw [extended, log, List.append_assoc], fun event member => ?_⟩
  exact (List.mem_append.mp member).elim (others event) (rest event)

theorem record {event : Event} {client : Client} (owner : event.thread = thread) (different : other ≠ thread) :
    Grows other client (client.record event) :=
  ⟨rfl, [event], rfl, by simpa [owner] using Ne.symm different⟩

theorem exec {o : Op} {input : Input} {reply : o.Reply} (different : other ≠ thread)
    (executed : Transfer.exec thread o input before = some (reply, after)) : Grows other before after := by
  obtain ⟨events, log, logs⟩ := exec_log executed
  refine ⟨exec_mainThreadId executed, events, log, fun event member same => ?_⟩
  exact different (same.symm.trans (logs.thread event member).1)

end Grows

/-- Nothing has happened yet, and the main thread is one of the threads. -/
structure Client.Starts (client : Client) (count : Nat) : Prop where
  log : client.log = []
  main : client.mainThreadId < count

/-- What a property of the client is proved with. -/
structure Discipline (build : Build) where
  choices : Choices (kernel build)
  invariant : Client → Prop
  keeps : ThreadId → Client → Client → Prop
  step : ThreadId → Client → Client → Prop
  idle : ThreadId → Client → Prop
  requires : Entry → ThreadId → Client → Prop

namespace Discipline
variable {build : Build} (d : Discipline build)

def rules : Rules (kernel build) where
  choices := d.choices
  knows := Client.Knows
  alive _ _ := True
  invariant := d.invariant
  rely thread before after := Grows thread before after ∧ d.keeps thread before after
  step := d.step
  idle := d.idle
  requires := d.requires

/-- What the others do again and again, they do. -/
structure Regular : Prop where
  refl : ∀ thread client, d.keeps thread client client
  trans : ∀ {thread first middle last}, d.keeps thread first middle → d.keeps thread middle last →
    d.keeps thread first last
  fresh : ∀ {thread client}, d.invariant client → ¬ client.Knows thread → d.idle thread client
  idles : ∀ {thread before after}, Grows thread before after → d.keeps thread before after → d.idle thread before →
    d.idle thread after
  readies : ∀ {entry thread before after}, Grows thread before after → d.keeps thread before after →
    d.requires entry thread before → d.requires entry thread after

variable {d}

theorem Regular.orderly (regular : d.Regular) : d.rules.Orderly where
  refl thread client := ⟨.refl thread client, regular.refl thread client⟩
  trans early late := ⟨early.1.trans late.1, regular.trans early.2 late.2⟩

private theorem named (d : Discipline build) : d.rules.Named := by
  have recorded (thread : ThreadId) (event : Event) (client : Client)
      (names : ∀ name, event.names name → name = thread) :
      d.rules.Keeps (· = thread) (fun _ => True) client (client.record event) := by
    refine ⟨fun name knows => ?_, fun _ _ _ => trivial⟩
    rcases knows with main | ⟨found, member, mentions⟩
    · exact Or.inl (Or.inl main)
    · rcases List.mem_append.mp member with old | last
      · exact Or.inl (Or.inr ⟨found, old, mentions⟩)
      · cases List.mem_singleton.mp last
        exact Or.inr (names name mentions)
  refine ⟨?_, ?_, ?_, ?_, ?_, ?_, ?_, ?_⟩
  · intro thread o input before reply after executed
    obtain ⟨events, log, logs⟩ := exec_log executed
    refine ⟨fun name knows => ?_, fun _ _ _ => trivial⟩
    rcases knows with main | ⟨event, member, mentions⟩
    · exact Or.inl (Or.inl (main.trans (exec_mainThreadId executed)))
    · rw [log] at member
      rcases List.mem_append.mp member with old | last
      · exact Or.inl (Or.inr ⟨event, old, mentions⟩)
      · exact Or.inr ((logs.thread event last).2 name mentions)
  · intro thread entry before after admitted
    refine ⟨?_, trivial⟩
    cases entry with
    | readThread => cases admitted
    | _ =>
      cases admitted
      exact recorded thread _ before fun _ same => same
  · intro thread child entry client
    refine ⟨⟨fun name knows => ?_, fun _ _ _ => trivial⟩, trivial⟩
    rcases knows with main | ⟨event, member, mentions⟩
    · exact Or.inl (Or.inl main)
    · rcases List.mem_append.mp member with old | last
      · exact Or.inl (Or.inr ⟨event, old, mentions⟩)
      · cases List.mem_singleton.mp last
        exact Or.inr mentions
  · intro thread other client
    obtain ⟨known, _⟩ := recorded thread (.disposed thread other) client fun _ same => same
    exact ⟨known, fun _ _ _ => trivial⟩
  · intro thread client name knows
    exact (recorded thread (.exited thread) client fun _ same => same).known name knows
  · exact fun thread value client => recorded thread _ client fun _ same => same
  · exact fun thread client => recorded thread _ client fun _ same => same
  · intro input before after moved
    cases input with
    | command =>
      cases moved
      exact ⟨fun _ knows => Or.inl knows, fun _ _ _ => trivial⟩
    | _ => cases moved

theorem Regular.sound (regular : d.Regular)
    (called : ∀ {thread entry client}, d.choices.calls thread entry client → d.invariant client →
      d.idle thread client → (∀ this options, entry ≠ .readThread this options) →
      d.invariant (client.record (.called thread entry)) ∧ d.requires entry thread
        (client.record (.called thread entry)) ∧
      ∀ other, other ≠ thread → d.keeps other client (client.record (.called thread entry)))
    (commanded : ∀ {this command client}, d.choices.moves (.command this command) client → d.invariant client →
      let after := client.update this ({ · with readThreadCommand := command })
      d.invariant after ∧ ∀ thread, d.keeps thread client after)
    (body : ∀ {entry thread client}, d.invariant client → d.requires entry thread client →
      d.rules.Holds thread (body build entry) (d.rules.Returns thread) client client) : d.rules.Sound where
  named := named d
  refl := regular.orderly.refl
  trans := regular.orderly.trans
  fresh := regular.fresh
  idles moved := regular.idles moved.1 moved.2
  readies moved := regular.readies moved.1 moved.2
  called {thread entry before after} allowed kept idle admitted := by
    have outside (this : Ptr) (options : ConnectionOptions) : entry ≠ .readThread this options := by
      rintro rfl
      cases admitted
    obtain rfl : after = before.record (.called thread entry) := by
      cases entry <;> cases admitted <;> rfl
    obtain ⟨invariant, ready, keeps⟩ := called allowed kept idle outside
    exact ⟨⟨invariant, fun other different => ⟨.record rfl different, keeps other different⟩⟩, ready⟩
  environment {input before after} allowed kept moved := by
    cases input with
    | command this command =>
      cases moved
      obtain ⟨invariant, keeps⟩ := commanded allowed kept
      exact ⟨invariant, fun thread => ⟨⟨rfl, [], (List.append_nil _).symm, by simp⟩, keeps thread⟩⟩
    | _ => cases moved
  body kept ready _ := body kept ready

theorem ends_record {thread : ThreadId} {client : Client} {event : Event} (owner : event.thread = thread)
    (kept : d.invariant (client.record event))
    (keeps : ∀ other, other ≠ thread → d.keeps other client (client.record event)) :
    d.rules.Ends thread client (client.record event) :=
  ⟨kept, fun other different => ⟨.record owner different, keeps other different⟩⟩

theorem ends_op {thread : ThreadId} {o : Op} {input : Input} {reply : o.Reply} {client after : Client}
    (executed : exec thread o input client = some (reply, after)) (kept : d.invariant after)
    (keeps : ∀ other, other ≠ thread → d.keeps other client after) : d.rules.Ends thread client after :=
  ⟨kept, fun other different => ⟨.exec different executed, keeps other different⟩⟩

theorem starts_safe {client : Client} {count : Nat} (starts : client.Starts count)
    (kept : d.invariant client) (idle : ∀ thread, d.idle thread client) :
    d.rules.Safe (World.initial client count) := by
  refine .starts kept (fun name knows => ?_) idle
  rcases knows with rfl | ⟨event, member, _⟩
  · exact starts.main
  · rw [starts.log] at member
    cases member

section works
variable {thread : ThreadId} {mine more : Client → Prop} {start now : Client} {α : Type}

theorem holds_yieldToAnyThread (works : d.rules.Works thread mine start now) (regular : d.Regular)
    (waits : ∀ before after, d.invariant after → Grows thread before after → d.keeps thread before after →
      mine before → mine after) {rest : Unit → Program α} {post : α → Client → Client → Prop}
    (safe : ∀ start now, d.rules.Works thread mine start now → d.rules.Holds thread (rest ()) post start now) :
    d.rules.Holds thread ((yieldToAnyThread build).bind rest) post start now := by
  cases build with
  | retro =>
    refine works.yields fun later kept moved _ => safe later later ?_
    exact .begins regular.orderly kept (waits now later kept moved.1 moved.2 works.holds)
  | direct => exact safe start now works

theorem holds_read {o : Op} {reply : o.Reply} {rest : o.Reply → Program α} {post : α → Client → Client → Prop}
    (reads : ∀ input, exec thread o input now = some (reply, now)) (stepped : d.step thread now now)
    (safe : d.rules.Holds thread (rest reply) post start now) :
    d.rules.Holds thread ((perform o).bind rest) post start now := by
  intro input found after _ executed
  cases (reads input).symm.trans executed
  exact ⟨stepped, safe⟩

theorem holds_op (works : d.rules.Works thread mine start now) (regular : d.Regular) {o : Op}
    {rest : o.Reply → Program α} {post : α → Client → Client → Prop}
    (goes : ∀ input reply after, d.choices.answers thread o input now → exec thread o input now = some (reply, after) →
      d.step thread now after ∧ d.invariant after ∧ (∀ other, other ≠ thread → d.keeps other now after) ∧
      (d.rules.Ends thread start after → d.rules.Holds thread (rest reply) post start after)) :
    d.rules.Holds thread ((perform o).bind rest) post start now := by
  intro input reply after answered executed
  obtain ⟨stepped, kept, keeps, safe⟩ := goes input reply after answered executed
  exact ⟨stepped, safe (works.ends.trans regular.orderly (ends_op executed kept keeps))⟩

end works
end Discipline
end PowerBoot.Transfer
