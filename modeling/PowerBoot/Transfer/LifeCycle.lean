import PowerBoot.Transfer.Authentication

/-! The life of a read thread. Nothing leaves the state Open again, so it tells that the
reader is there only while nothing ends its loop. -/

namespace PowerBoot.Transfer
open Coop Code

/-- Whether the thread runs after an event. -/
def Event.activates (thread : ThreadId) (active : Bool) : Event → Bool
  | .called actor _ => active || actor == thread
  | .spawned _ child _ => active || child == thread
  | .returned actor _ | .threw actor => active && actor != thread
  | .disposed _ other => active && other != thread
  | .exited _ => false
  | _ => active

/-- The events have started the thread and not ended it. -/
def active (thread : ThreadId) (log : List Event) :
    Bool := log.foldl (fun active event => event.activates thread active) false

/-- The answers with which the read loop goes on. -/
def Answer.goesOn : Answer → Bool
  | ⟨.channelEof, rc, _⟩ => rc = 0
  | ⟨.channelRead, rc, _⟩ => rc > 0
  | _ => true

/-- The read loop goes on with this operation: the command is Read, the channel is not at
its end, and a read succeeds. -/
def Op.GoesOn (this : Ptr) (input : Input) (client : Client) : Op → Prop
  | .member _ => (client.sftp this).readThreadCommand = .read
  | .library object call => ∀ answer script, client.answer object call.function input = some (answer, script) →
    answer.goesOn = true
  | _ => True

/-- One object is connected, and nothing ends the loop of its read thread. -/
def reading (build : Build) (this : Ptr) : Choices (kernel build) :=
  { connecting build this with
    answers := fun actor o input client => (client.sftp this).readThreadState = .open_ →
      owner this client.log = some actor → o.GoesOn this input client }

/-- The state is Open only after the set-up, and while the thread runs that did it. -/
def LifeCycle {build : Build} (this : Ptr) (methods : Option String) (world : World (kernel build)) : Prop :=
  (world.state.sftp this).readThreadState = .open_ → ∃ reader pointer, owner this world.state.log = some reader ∧
    stageOf false this methods world.state.log = some (.opened pointer) ∧ world.Running reader

variable {build : Build} {this : Ptr} {thread other : ThreadId} {log : List Event} {event : Event}
  {before after client : Client} {α : Type}

@[simp] theorem active_concat : active thread (log ++ [event]) = event.activates thread (active thread log) := by
  simp [active]

/-- The events of operations, which start and end no thread. -/
def Event.Inner : Event → Prop
  | .library .. | .waited .. | .reported .. | .noMessage _ => True
  | _ => False

theorem Op.Logs.inner {o : Op} {reply : o.Reply} {events : List Event} (logs : o.Logs thread reply events) :
    ∀ event ∈ events, event.Inner := by
  intro event member
  cases o with
  | library =>
    obtain ⟨_, _, rfl⟩ := logs
    cases List.mem_singleton.mp member
    trivial
  | waited | report | noMessage =>
    cases (show events = _ from logs)
    cases List.mem_singleton.mp member
    trivial
  | _ =>
    cases (show events = _ from logs)
    cases member

theorem active_inner {events : List Event} (inner : ∀ event ∈ events, event.Inner) :
    active thread (log ++ events) = active thread log := by
  induction events generalizing log with
  | nil => rw [List.append_nil]
  | cons event events ih =>
    rw [List.append_cons, ih fun found member => inner found (List.mem_cons_of_mem _ member), active_concat]
    have first := inner event (List.mem_cons_self ..)
    cases event <;> first | rfl | exact first.elim

private theorem started (now : active thread (log ++ [event]) = true)
    (starts : event.activates thread (active thread log) = (active thread log || other == thread)) :
    thread = other ∨ active thread log = true := by
  rw [active_concat, starts, Bool.or_eq_true, beq_iff_eq] at now
  exact now.symm.imp_left Eq.symm

private theorem ended (now : active thread (log ++ [event]) = true)
    (ends : event.activates thread (active thread log) = (active thread log && other != thread)) :
    thread ≠ other ∧ active thread log = true := by
  rw [active_concat, ends, Bool.and_eq_true, bne_iff_ne] at now
  exact ⟨now.2.symm, now.1⟩

theorem active_tells : (kernel build).Tells fun thread client => active thread client.log = true where
  exec executed now := by
    obtain ⟨events, log, logs⟩ := exec_log executed
    rwa [log, active_inner logs.inner] at now
  called {thread entry client after name} admitted now := by
    cases entry with
    | readThread => cases admitted
    | _ =>
      cases admitted
      exact started now rfl
  spawned now := started now rfl
  disposed now := ended now rfl
  exited now := by
    simp only [Client.record, active_concat, Event.activates, Bool.false_eq_true] at now
  returned now := ended now rfl
  threw now := ended now rfl
  environment {input _ _ _} moved now := by
    cases input with
    | command =>
      cases moved
      exact now
    | _ => cases moved

section living
variable (build : Build) (this : Ptr)

/-- What the runs keep to: while the state is Open its thread runs, which is not the main
thread, and a connected object is Open. -/
structure Living (client : Client) : Prop where
  reads : (client.sftp this).readThreadState = .open_ → ∃ reader, owner this client.log = some reader ∧
    active reader client.log = true ∧ (build = .retro → reader ≠ client.mainThreadId)
  connected : Connected this client → build = .retro ∧ (client.sftp this).readThreadState = .open_

/-- What the other threads leave alone: all that the owner of the object knows. No thread
that is known becomes the owner by what others do. -/
structure Spares (thread : ThreadId) (before after : Client) : Prop where
  owner : owner this before.log = some thread → owner this after.log = some thread ∧
    active thread after.log = active thread before.log ∧
    (after.sftp this).readThreadState = (before.sftp this).readThreadState
  known : before.Knows thread → after.Knows thread
  free : before.Knows thread → Transfer.owner this after.log = some thread →
    Transfer.owner this before.log = some thread

/-- The thread is at work on the object, whose state is Open or is not. -/
structure Tends (opened : Bool) (thread : ThreadId) (client : Client) : Prop where
  owner : owner this client.log = some thread
  active : active thread client.log = true
  state : (client.sftp this).readThreadState = .open_ ↔ opened = true

/-- The same, on a thread of its own. -/
structure Serves (opened : Bool) (thread : ThreadId) (client : Client) :
    Prop extends Tends this opened thread client where
  main : build = .retro → thread ≠ client.mainThreadId

/-- A thread that has the object set up by another one. -/
structure Outside (thread : ThreadId) (client : Client) : Prop where
  known : client.Knows thread
  free : owner this client.log ≠ some thread

def living : Discipline build where
  choices := { reading build this with
    calls := fun thread entry client => (connecting build this).calls thread entry client ∧
      ¬ active thread client.log = true }
  invariant := Living build this
  keeps := Spares this
  step _ _ after := Living build this after
  idle _ _ := True
  requires entry thread client := match entry with
    | .readThread object _ => object = this ∧ Serves build this false thread client
    | .connect object _ => object = this ∧ client.Knows thread ∧ Tends this false thread client
    | .operate object _ | .destroy object => object = this ∧ Outside this thread client ∧ Connected this client
    | .construct _ => False

end living

theorem Client.Knows.record (known : client.Knows thread) : (client.record event).Knows thread :=
  known.imp id fun ⟨found, member, names⟩ => ⟨found, List.mem_append_left _ member, names⟩

theorem Client.Knows.grows (known : before.Knows thread) (grows : Grows other before after) : after.Knows thread := by
  obtain ⟨more, log, _⟩ := grows.log
  rcases known with main | ⟨found, member, names⟩
  · exact Or.inl (main.trans grows.mainThreadId.symm)
  · exact Or.inr ⟨found, log ▸ List.mem_append_left _ member, names⟩

theorem Connected.of_record (connected : Connected this (client.record event))
    (returns : ∀ actor, event ≠ .returned actor (.connected this)) : Connected this client := by
  obtain ⟨actor, member⟩ := connected
  rcases List.mem_append.mp member with earlier | now
  · exact ⟨actor, earlier⟩
  · exact (returns actor (List.mem_singleton.mp now).symm).elim

namespace Spares

theorem refl (client : Client) : Spares this thread client client := ⟨fun owner => ⟨owner, rfl, rfl⟩, id, fun _ => id⟩

theorem trans {first middle last : Client} (early : Spares this thread first middle)
    (late : Spares this thread middle last) :
    Spares this thread first last where
  owner owns := by
    obtain ⟨still, active, state⟩ := early.owner owns
    obtain ⟨last, alive, same⟩ := late.owner still
    exact ⟨last, alive.trans active, same.trans state⟩
  known known := late.known (early.known known)
  free known owns := early.free known (late.free (early.known known) owns)

theorem tends {opened : Bool} (spares : Spares this thread before after) (tends : Tends this opened thread before) :
    Tends this opened thread after := by
  obtain ⟨owner, active, state⟩ := spares.owner tends.owner
  exact ⟨owner, active.trans tends.active, by rw [state, tends.state]⟩

theorem outside (spares : Spares this thread before after) (outside : Outside this thread before) :
    Outside this thread after :=
  ⟨spares.known outside.known, fun owns => outside.free (spares.free outside.known owns)⟩

end Spares

theorem living_regular : (living build this).Regular where
  refl _ client := .refl client
  trans := .trans
  fresh _ _ := trivial
  idles _ _ _ := trivial
  readies {entry actor before after} grows spares ready := by
    cases entry with
    | construct => exact ready
    | readThread =>
      obtain ⟨rfl, serves⟩ := ready
      exact ⟨rfl, spares.tends serves.toTends, fun retro => grows.mainThreadId ▸ serves.main retro⟩
    | connect =>
      obtain ⟨rfl, known, tends⟩ := ready
      exact ⟨rfl, spares.known known, spares.tends tends⟩
    | operate | destroy =>
      obtain ⟨rfl, outside, connected⟩ := ready
      exact ⟨rfl, spares.outside outside, connected.grows grows⟩

/-- Every operation but an assignment to the state of a read thread. -/
def Op.Tame : Op → Prop
  | .assign _ assigned => assigned.Silent
  | _ => True

/-- A step that concerns neither the life of a thread nor the state of the object. -/
structure Calm (this : Ptr) (before after : Client) : Prop where
  log : ∃ more, after.log = before.log ++ more
  main : after.mainThreadId = before.mainThreadId
  owner : owner this after.log = owner this before.log
  active : ∀ name, active name after.log = active name before.log
  state : (after.sftp this).readThreadState = (before.sftp this).readThreadState
  connected : Connected this after → Connected this before

theorem exec_state {o : Op} (tame : o.Tame) {input : Input} {reply : o.Reply}
    (executed : exec thread o input before = some (reply, after)) :
    (after.sftp this).readThreadState = (before.sftp this).readThreadState := by
  cases o with
  | library =>
    obtain ⟨_, _, _, _, rfl⟩ := exec_library.mp executed
    rfl
  | assign object assigned =>
    cases executed
    by_cases same : this = object
    · subst same
      rw [Client.update_same]
      exact tame _
    · rw [Client.update_other same]
  | setRc | waited | report | noMessage =>
    cases executed
    rfl
  | newThread => rw [(exec_newThread executed).2.2]
  | _ => rw [exec_steady executed trivial]

theorem exec_calm {o : Op} (tame : o.Tame) {input : Input} {reply : o.Reply}
    (executed : exec thread o input before = some (reply, after)) : Calm this before after := by
  obtain ⟨events, log, logs⟩ := exec_log executed
  have inner := logs.inner
  refine ⟨⟨events, log⟩, exec_mainThreadId executed, ?_, fun name => by rw [log, active_inner inner],
    exec_state tame executed, ?_⟩
  · rw [log]
    refine owner_kept fun event member => ?_
    have known := inner event member
    cases event <;> first | rfl | exact known.elim
  · rintro ⟨actor, member⟩
    rw [log] at member
    rcases List.mem_append.mp member with earlier | now
    · exact ⟨actor, earlier⟩
    · exact (inner _ now).elim

namespace Calm
variable (calm : Calm this before after)
include calm

theorem living (kept : Living build this before) : Living build this after where
  reads open_ := by
    obtain ⟨reader, owner, active, main⟩ := kept.reads (calm.state ▸ open_)
    exact ⟨reader, calm.owner.trans owner, (calm.active reader).trans active, calm.main ▸ main⟩
  connected connected := calm.state ▸ kept.connected (calm.connected connected)

theorem spares : Spares this thread before after where
  owner owns := ⟨calm.owner.trans owns, calm.active thread, calm.state⟩
  known known := by
    obtain ⟨more, log⟩ := calm.log
    refine known.imp (fun same => same.trans calm.main.symm) fun ⟨found, member, names⟩ => ⟨found, ?_, names⟩
    exact log ▸ List.mem_append_left _ member
  free _ owns := calm.owner ▸ owns

theorem serves {opened : Bool} (serves : Serves build this opened thread before) :
    Serves build this opened thread after where
  toTends := calm.spares.tends serves.toTends
  main retro := calm.main ▸ serves.main retro

end Calm

/-- All that the code of the client does but the assignment of the state. -/
def tame : Allowance signature where
  ops := Op.Tame
  disposes _ := True
  throws := True
  exits := True

theorem Op.Minor.tame {o : Op} (minor : o.Minor) : o.Tame := by
  cases o <;> trivial

theorem tame_settingUp : SettingUp build this fun {_} code => code.Within tame :=
  settingUp_within (fun _ minor => minor.tame) (fun _ _ => trivial) trivial trivial (fun _ => trivial)
    (fun _ silent => silent)
    (fun _ _ _ => trivial) fun _ => trivial

section works
variable {start now : Client} {opened : Bool}

theorem ends_tending (tends : Tends this opened thread before) (kept : Living build this after)
    (grows : ∀ other, other ≠ thread → Grows other before after)
    (same : owner this after.log = owner this before.log) : (living build this).rules.Ends thread before after := by
  refine ⟨kept, fun other different =>
    ⟨grows other different, fun owns => ?_, fun known => ?_, fun _ owns => same ▸ owns⟩⟩
  · exact (different (Option.some.inj (owns.symm.trans tends.owner))).elim
  · exact known.grows (grows other different)

theorem Tends.closes (tends : Tends this false thread client) (kept : Living build this client)
    (own : event.thread = thread)
    (owns : event.owns this = none) (returns : ∀ actor, event ≠ .returned actor (.connected this)) :
    Living build this (client.record event) ∧ (living build this).rules.Ends thread client (client.record event) := by
  have closed : (client.sftp this).readThreadState ≠ .open_ := fun open_ => by cases tends.state.mp open_
  have living : Living build this (client.record event) := by
    refine ⟨fun open_ => (closed open_).elim, fun connected => ?_⟩
    exact (closed (kept.connected (connected.of_record returns)).2).elim
  refine ⟨living, ends_tending tends living (fun _ different => .record own different) ?_⟩
  rw [Client.record, owner_concat, owns, Option.none_or]

theorem serves_bears : (living build this).rules.Bears thread tame (Serves build this false thread) where
  op o input now reply after used _ executed kept serves := by
    have calm : Calm this now after := exec_calm used executed
    exact ⟨calm.living kept, Discipline.ends_op executed (calm.living kept) fun _ _ => calm.spares, calm.serves serves,
      trivial⟩
  waits _ _ _ moved _ serves :=
    ⟨moved.2.tends serves.toTends, fun retro => moved.1.mainThreadId ▸ serves.main retro⟩
  threw _ now kept serves := ⟨(serves.closes kept rfl rfl fun _ same => by cases same).2, trivial⟩
  exited _ now kept serves := (serves.closes kept rfl rfl fun _ same => by cases same).2
  spawned _ _ _ never := never.elim
  disposed other now _ kept serves := by
    obtain ⟨living, ends⟩ := @Tends.closes build this thread (.disposed thread other) now serves.toTends kept rfl rfl
      fun _ same => by cases same
    refine ⟨living, ends, fun different => ⟨⟨?_, ?_, serves.state⟩, serves.main⟩⟩
    · exact owner_concat.trans serves.owner
    · refine active_concat.trans ?_
      rw [Event.activates, serves.active]
      simpa using different

/-- The set-up ends with the state Open. -/
theorem setUp_opens {options : ConnectionOptions}
    (works : (living build this).rules.Works thread (Serves build this false thread) start now) :
    (living build this).rules.Holds thread (setUp build this options)
      (fun _ => (living build this).rules.Works thread (Serves build this true thread)) start now := by
  let opens (code : Program Unit) : Prop := ∀ start now,
    (living build this).rules.Works thread (Serves build this false thread) start now →
      (living build this).rules.Holds thread code
        (fun _ => (living build this).rules.Works thread (Serves build this true thread)) start now
  suffices opens (setUp build this options) from this start now works
  refine @SettingUp.setUp build this _ options tame_settingUp opens ?_ ?_
  · exact fun within rest start now works => serves_bears.plain living_regular.orderly within works rest
  · intro start now works input reply after _ executed
    cases executed
    have serves := works.holds
    have same : ((now.update this (Assign.readThreadState .open_).apply).sftp this).readThreadState = .open_ := by
      rw [Client.update_same]
      rfl
    have kept : Living build this (now.update this (Assign.readThreadState .open_).apply) := by
      refine ⟨fun _ => ⟨thread, serves.owner, serves.active, serves.main⟩, fun connected => ?_⟩
      cases serves.state.mp (works.ends.invariant.connected connected).2
    refine ⟨kept, works.step living_regular.orderly (ends_tending serves.toTends kept ?_ rfl) ?_⟩
    · exact fun _ _ => ⟨rfl, [], (List.append_nil _).symm, by simp⟩
    · exact ⟨⟨serves.owner, serves.active, fun _ => rfl, fun _ => same⟩, serves.main⟩

theorem reading_op (works : (living build this).rules.Works thread (Serves build this true thread) start now) {o : Op}
    (used : o.Tame) {rest : o.Reply → Program α} {post : α → Client → Client → Prop}
    (safe : ∀ input reply after, o.GoesOn this input now → exec thread o input now = some (reply, after) →
      (living build this).rules.Works thread (Serves build this true thread) start after →
      (living build this).rules.Holds thread (rest reply) post start after) :
    (living build this).rules.Holds thread ((perform o).bind rest) post start now := by
  intro input reply after answered executed
  have calm : Calm this now after := exec_calm used executed
  have kept := calm.living works.ends.invariant
  have serves := works.holds
  have ends : (living build this).rules.Ends thread now after := Discipline.ends_op executed kept fun _ _ => calm.spares
  refine ⟨kept, safe input reply after (answered (serves.state.mpr rfl) serves.owner) executed ?_⟩
  exact works.step living_regular.orderly ends (calm.serves serves)

theorem reading_yield (works : (living build this).rules.Works thread (Serves build this true thread) start now)
    {rest : Unit → Program α} {post : α → Client → Client → Prop}
    (safe : ∀ start now, (living build this).rules.Works thread (Serves build this true thread) start now →
      (living build this).rules.Holds thread (rest ()) post start now) :
    (living build this).rules.Holds thread ((yieldToAnyThread build).bind rest) post start now := by
  refine Discipline.holds_yieldToAnyThread works living_regular (fun _ _ _ grows spares serves => ?_) safe
  exact ⟨spares.tends serves.toTends, fun retro => grows.mainThreadId ▸ serves.main retro⟩

theorem goesOn_result {object : Ptr} {call : Call} {input : Input} {result : call.function.Result}
    (goes : (Op.library object call).GoesOn this input before)
    (executed : exec thread (.library object call) input before = some (result, after)) :
    ∃ errno, Answer.goesOn ⟨call.function, result, errno⟩ = true := by
  obtain ⟨answer, script, found, given, _⟩ := exec_library.mp executed
  exact ⟨answer.errno, Answer.for_iff.mp given ▸ goes answer script found⟩

/-- The loop does not end. -/
theorem serve_reads (works : (living build this).rules.Works thread (Serves build this true thread) start now)
    {post : Unit → Client → Client → Prop} :
    (living build this).rules.Holds thread (serve build this) post start now := by
  refine ⟨fun _ => (living build this).rules.Works thread (Serves build this true thread), works,
    fun _ start now works => ?_⟩
  simp only [bind_eq, Code.bind_assoc]
  refine reading_op works (o := .member this) trivial fun input sftp after command executed works => ?_
  cases executed
  have open_ := works.holds.state.mpr rfl
  rw [if_pos ⟨command, open_⟩]
  simp only [Code.bind_assoc]
  refine reading_op works (o := .library this (.channelEof _)) trivial
    fun input (eof : Int) after goes executed works => ?_
  obtain ⟨errno, goes⟩ := goesOn_result goes executed
  have more : eof = 0 := by simpa [Answer.goesOn] using goes
  simp only [more, pure_eq, Code.pure_bind, decide_true, if_true]
  refine reading_op works (o := .member this) trivial fun input sftp after _ _ works => ?_
  simp only [network, bind_eq, Code.bind_assoc]
  refine reading_yield works fun start now works => ?_
  refine reading_op works (o := .library this (.channelRead ..)) trivial
    fun input (rc : Int) after goes executed works => ?_
  obtain ⟨errno, goes⟩ := goesOn_result goes executed
  have read : ¬ rc ≤ 0 := by simpa [Answer.goesOn] using goes
  refine reading_yield works fun start now works => ?_
  simp only [pure_eq, Code.pure_bind, when, if_neg read]
  exact reading_yield works fun start now works => works

theorem readThread_reads {options : ConnectionOptions}
    (works : (living build this).rules.Works thread (Serves build this false thread) start now) :
    (living build this).rules.Holds thread (readThread build this options)
      (fun _ => (living build this).rules.Works thread (Serves build this false thread)) start now := by
  rw [readThread]
  refine serves_bears.plain living_regular.orderly (@perform_within tame (.member this) trivial) works
    fun sftp start now works => ?_
  split
  · exact works
  · refine ((setUp_opens works).mono fun _ start now works => ?_).bind
    exact serve_reads works

/-- The wait for the state Open, which only the waiting thread could set. -/
theorem waiting_tends (works : (living build this).rules.Works thread (Tends this false thread) start now)
    {post : Unit → Client → Client → Prop} :
    (living build this).rules.Holds thread
      (repeatWhile (do return (← perform (.member this)).readThreadState ≠ .open_) (yieldToAnyThread build)) post start
        now := by
  refine ⟨fun _ => (living build this).rules.Works thread (Tends this false thread), works, fun _ start now works => ?_⟩
  refine @Discipline.holds_read _ _ _ _ _ _ (.member this) _ _ _ (fun _ => rfl) works.ends.invariant ?_
  have closed : (now.sftp this).readThreadState ≠ .open_ := fun open_ => by cases works.holds.state.mp open_
  simp only [pure_eq, bind_eq, ne_eq, closed, not_false_eq_true, decide_true, if_true]
  exact Discipline.holds_yieldToAnyThread works living_regular (fun _ _ _ _ spares tends => spares.tends tends)
    fun start now works => works

/-- The object is set up by another thread, and Open. -/
structure Attends (build : Build) (this : Ptr) (thread : ThreadId) (client : Client) :
    Prop extends Outside this thread client where
  retro : build = .retro
  state : (client.sftp this).readThreadState = .open_

theorem waiting_attends (works : (living .retro this).rules.Works thread (Outside this thread) start now) :
    (living .retro this).rules.Holds thread
      (repeatWhile (do return (← perform (.member this)).readThreadState ≠ .open_) (yieldToAnyThread .retro))
      (fun _ => (living .retro this).rules.Works thread (Attends .retro this thread)) start now := by
  refine ⟨fun _ => (living .retro this).rules.Works thread (Outside this thread), works, fun _ start now works => ?_⟩
  refine @Discipline.holds_read _ _ _ _ _ _ (.member this) _ _ _ (fun _ => rfl) works.ends.invariant ?_
  by_cases open_ : (now.sftp this).readThreadState = .open_
  · simp only [pure_eq, bind_eq, open_]
    exact works.mono ⟨works.holds, rfl, open_⟩
  · simp only [pure_eq, bind_eq, ne_eq, open_, not_false_eq_true, decide_true, if_true]
    exact Discipline.holds_yieldToAnyThread works living_regular (fun _ _ _ _ spares outside => spares.outside outside)
      fun start now works => works

theorem connect_attends {options : ConnectionOptions} (known : now.Knows thread)
    (works : (living build this).rules.Works thread (Tends this false thread) start now) :
    (living build this).rules.Holds thread (connect build this options)
      (fun _ => (living build this).rules.Works thread (Attends build this thread)) start now := by
  have tends := works.holds
  cases build with
  | direct linux =>
    have serves : (living (.direct linux) this).rules.Works thread (Serves (.direct linux) this false thread) start
      now :=
      works.mono ⟨tends, nofun⟩
    refine ((readThread_reads serves).mono fun _ start now works => ?_).bind
    exact waiting_tends (works.mono works.holds.toTends)
  | retro =>
    intro input err after _ executed
    have calm : Calm this now after := exec_calm (o := .newThread) trivial executed
    have kept := calm.living works.ends.invariant
    replace works := works.step living_regular.orderly
      (ends_tending tends kept (fun _ different => .exec different executed) calm.owner) (calm.spares.tends tends)
    replace tends := works.holds
    replace known : after.Knows thread := calm.spares.known known
    refine ⟨kept, ?_⟩
    by_cases negative : err < 0
    · simp only [Code.pure_bind, if_pos negative]
      exact Discipline.holds_yieldToAnyThread works living_regular (fun _ _ _ _ spares tends => spares.tends tends)
        fun start now works => waiting_tends works
    · simp only [Code.pure_bind, if_neg negative]
      intro child other fresh
      have closed : (after.sftp this).readThreadState ≠ .open_ := fun open_ => by cases tends.state.mp open_
      let next := spawned thread child (.readThread this options) after
      have kept : Living .retro this next := by
        refine ⟨fun open_ => (closed open_).elim, fun connected => ?_⟩
        exact (closed (works.ends.invariant.connected (connected.of_record fun _ same => by cases same)).2).elim
      have owns : owner this next.log = some child := owner_concat.trans (by simp [Event.owns])
      have knows (name : ThreadId) (known : after.Knows name) : next.Knows name := Client.Knows.record known
      have ends : (living .retro this).rules.Ends thread after next := by
        refine ⟨kept, fun name different =>
          ⟨⟨rfl, [_], rfl, by simpa [Event.thread] using different.symm⟩, ?_, knows name, ?_⟩⟩
        · intro another
          exact (different (Option.some.inj (another.symm.trans tends.owner))).elim
        · intro known another
          exact (fresh (Option.some.inj (owns.symm.trans another) ▸ known)).elim
      refine ⟨kept, works.ends.trans living_regular.orderly ends,
        ⟨rfl, ⟨owns, ?_, ?_⟩, fun _ main => fresh (Or.inl main)⟩, ?_⟩
      · exact active_concat.trans (by simp [Event.activates])
      · exact ⟨fun open_ => (closed open_).elim, by simp⟩
      · refine waiting_attends (.begins living_regular.orderly kept ⟨knows thread known, fun another => ?_⟩)
        exact other (Option.some.inj (owns.symm.trans another))

/-- One event of a thread that uses the object: it does not end the reader. -/
theorem Attends.records (attends : Attends build this thread client) (kept : Living build this client)
    (own : event.thread = thread)
    (owns : event.owns this = none)
    (spared : ∀ reader, thread ≠ reader → client.mainThreadId ≠ reader → event.activates reader true = true) :
    Living build this (client.record event) ∧ (living build this).rules.Ends thread client (client.record event) := by
  obtain ⟨reader, owned, alive, main⟩ := kept.reads attends.state
  have still : active reader (client.log ++ [event]) = true := by
    rw [active_concat, alive]
    refine spared reader (fun mine => attends.free (mine ▸ owned)) fun same => main attends.retro same.symm
  have same : owner this (client.record event).log = owner this client.log := by
    rw [Client.record, owner_concat, owns, Option.none_or]
  have living : Living build this (client.record event) :=
    ⟨fun _ => ⟨reader, same.trans owned, still, main⟩, fun _ => ⟨attends.retro, attends.state⟩⟩
  refine ⟨living, living, fun other different =>
    ⟨.record own different, fun another => ?_, .record, fun _ owns => same ▸ owns⟩⟩
  obtain rfl := Option.some.inj (owned.symm.trans another)
  exact ⟨same.trans another, still.trans alive.symm, rfl⟩

/-- What the methods of an object may do. -/
def attending (build : Build) (main : ThreadId) : Allowance signature where
  ops := Op.Tame
  replies o reply := match o, reply with
    | .mainThreadId, reply => reply = main
    | _, _ => True
  disposes thread := thread = main
  throws := True
  exits := build ≠ .retro

theorem attending_methods {main : ThreadId} : Methods build this fun {_} code => code.Within (attending build main) :=
  (permits_within (fun _ minor => minor.tame) (fun _ _ => trivial) trivial trivial (fun _ _ same => same) id).methods
    fun _ _ => perform_within trivial

theorem Living.attends (kept : Living build this client) (outside : Outside this thread client)
    (connected : Connected this client) : Attends build this thread client :=
  ⟨outside, (kept.connected connected).1, (kept.connected connected).2⟩

theorem attending_bears {main : ThreadId} : (living build this).rules.Bears thread (attending build main)
    (fun client => Outside this thread client ∧ Connected this client ∧ client.mainThreadId = main) where
  op o input now reply after used _ executed kept holds := by
    obtain ⟨outside, ⟨actor, member⟩, same⟩ := holds
    have calm : Calm this now after := exec_calm used executed
    obtain ⟨more, log⟩ := calm.log
    refine ⟨calm.living kept, Discipline.ends_op executed (calm.living kept) fun _ _ => calm.spares, ?_, ?_⟩
    · exact ⟨calm.spares.outside outside, ⟨actor, log ▸ List.mem_append_left _ member⟩, calm.main.trans same⟩
    · cases o with
      | mainThreadId =>
        cases executed
        exact same
      | _ => trivial
  waits before after kept moved _ holds :=
    ⟨moved.2.outside holds.1, holds.2.1.grows moved.1, moved.1.mainThreadId.trans holds.2.2⟩
  threw _ now kept holds := by
    obtain ⟨_, ends⟩ := @Attends.records build this thread (.threw thread) now (kept.attends holds.1 holds.2.1) kept rfl
      rfl
      fun reader other _ => by simpa [Event.activates] using other
    exact ⟨ends, trivial⟩
  exited direct _ kept holds := (direct (kept.attends holds.1 holds.2.1).retro).elim
  spawned _ _ _ never := never.elim
  disposed other now same kept holds := by
    obtain ⟨outside, ⟨actor, member⟩, main⟩ := holds
    obtain ⟨living, ends⟩ := @Attends.records build this thread (.disposed thread other) now
      (kept.attends outside ⟨actor, member⟩) kept rfl rfl fun reader _ named => by
        cases same
        simpa [Event.activates, main] using named
    refine ⟨living, ends, fun _ => ⟨⟨outside.known.record, fun owns => ?_⟩, ⟨actor, List.mem_append_left _ member⟩,
      main⟩⟩
    exact outside.free (owner_concat.symm.trans owns)

/-- The result of a call is the last that its thread records. -/
theorem Attends.returns {value : Value}
    (works : (living build this).rules.Works thread (Attends build this thread) start now) :
    (living build this).rules.Returns thread value start now := by
  obtain ⟨_, ends⟩ := @Attends.records build this thread (.returned thread value) now works.holds works.ends.invariant
    rfl rfl
    fun reader other _ => by simpa [Event.activates] using other
  exact ⟨works.ends.trans living_regular.orderly ends, trivial⟩

end works

theorem living_sound : (living build this).rules.Sound := by
  refine living_regular.sound ?_ ?_ ?_
  · rintro actor entry client ⟨allowed, idle⟩ kept _ outside
    have known : (client.record (.called actor entry)).Knows actor :=
      Or.inr ⟨_, List.mem_append_right _ (List.mem_singleton_self _), rfl⟩
    have connected (connected : Connected this (client.record (.called actor entry))) : Connected this client :=
      connected.of_record fun _ same => by cases same
    have same (other : ThreadId) (different : actor ≠ other) :
        active other (client.record (.called actor entry)).log = active other client.log := by
      refine active_concat.trans ?_
      simp [Event.activates, different]
    have using_ (owns : Event.owns this (.called actor entry) = none) (found : Connected this client) :
        Living build this (client.record (.called actor entry)) ∧
          Outside this actor (client.record (.called actor entry)) ∧
          ∀ other, other ≠ actor → Spares this other client (client.record (.called actor entry)) := by
      have owner : owner this (client.record (.called actor entry)).log = owner this client.log := by
        rw [Client.record, owner_concat, owns, Option.none_or]
      obtain ⟨retro, open_⟩ := kept.connected found
      obtain ⟨reader, owned, alive, main⟩ := kept.reads open_
      have free : actor ≠ reader := by
        rintro rfl
        exact idle alive
      refine ⟨⟨fun _ => ?_, fun _ => ⟨retro, open_⟩⟩, ⟨known, fun owns => ?_⟩, fun other different => ?_⟩
      · exact ⟨reader, owner.trans owned, (same reader free).trans alive, main⟩
      · exact free (Option.some.inj (owned.symm.trans (owner.symm.trans owns))).symm
      · exact ⟨fun owns => ⟨owner.trans owns, same other different.symm, rfl⟩, .record, fun _ owns => owner ▸ owns⟩
    cases entry with
    | construct | readThread => exact allowed.elim
    | connect object options =>
      obtain ⟨rfl, none⟩ := allowed
      have closed : (client.sftp object).readThreadState ≠ .open_ := by
        intro open_
        obtain ⟨reader, owned, _⟩ := kept.reads open_
        cases none.symm.trans owned
      have owns : owner object (client.record (.called actor (.connect object options))).log = some actor :=
        owner_concat.trans (by simp [Event.owns])
      refine ⟨⟨fun open_ => (closed open_).elim, fun found => kept.connected (connected found)⟩,
        ⟨rfl, known, owns, ?_, fun open_ => (closed open_).elim, by simp⟩, fun other different => ⟨?_, .record, ?_⟩⟩
      · exact active_concat.trans (by simp [Event.activates])
      · exact fun another => by cases none.symm.trans another
      · exact fun _ another => (different (Option.some.inj (another.symm.trans owns))).elim
    | operate | destroy =>
      obtain ⟨rfl, found⟩ := allowed
      obtain ⟨living, free, spares⟩ := using_ rfl found
      obtain ⟨caller, member⟩ := found
      exact ⟨living, ⟨rfl, free, caller, List.mem_append_left _ member⟩, spares⟩
  · intro object command client _ kept
    have state : ((client.update object ({ · with readThreadCommand := command })).sftp this).readThreadState =
        (client.sftp this).readThreadState := by
      by_cases same : this = object
      · subst same
        rw [Client.update_same]
      · rw [Client.update_other same]
    have calm : Calm this client (client.update object ({ · with readThreadCommand := command })) :=
      ⟨⟨[], (List.append_nil _).symm⟩, rfl, rfl, fun _ => rfl, state, id⟩
    exact ⟨calm.living kept, fun _ => calm.spares⟩
  · intro entry actor client kept ready
    have orderly := (@living_regular build this).orderly
    cases entry with
    | construct => exact ready.elim
    | connect object options =>
      obtain ⟨rfl, known, tends⟩ := ready
      apply Rules.Holds.bind
      exact (connect_attends known (.begins orderly kept tends)).mono fun _ _ _ works => Attends.returns works
    | readThread object options =>
      obtain ⟨rfl, serves⟩ := ready
      apply Rules.Holds.bind
      refine (readThread_reads (.begins orderly kept serves)).mono fun _ start now works => ?_
      obtain ⟨_, ends⟩ := @Tends.closes build object actor (.returned actor .none) now works.holds.toTends
        works.ends.invariant
        rfl rfl fun _ same => by cases same
      exact ⟨works.ends.trans orderly ends, trivial⟩
    | operate object operation =>
      obtain ⟨rfl, outside, connected⟩ := ready
      refine (attending_bears.holds orderly (attending_methods.operate operation)
        (.begins orderly kept ⟨outside, connected, rfl⟩)).mono fun value start now works => ?_
      exact Attends.returns (works.mono (works.ends.invariant.attends works.holds.1 works.holds.2.1))
    | destroy object =>
      obtain ⟨rfl, outside, connected⟩ := ready
      apply Rules.Holds.bind
      refine (attending_bears.holds orderly (attending_methods.destroy (perform_within trivial))
        (.begins orderly kept ⟨outside, connected, rfl⟩)).mono fun value start now works => ?_
      exact Attends.returns (works.mono (works.ends.invariant.attends works.holds.1 works.holds.2.1))

/-- In every run of one object in which nothing ends the loop of its read thread, the state
is Open only while that thread runs, with its set-up completed. -/
theorem reader_lives {client : Client} {count : Nat} (starts : client.Starts count)
    (unconnected : (client.sftp this).readThreadState = .uninitialized) {world : World (kernel build)}
    (reached : (reading build this).Reaches (World.initial client count) world) :
    LifeCycle this (client.sftp this).userauthlist world := by
  have first (name : ThreadId) (started : active name client.log = true) :
      (World.initial (K := kernel build) client count).Running name := by
    rw [starts.log] at started
    cases started
  have kept : Living build this client := by
    refine ⟨fun open_ => ?_, ?_⟩
    · cases unconnected.symm.trans open_
    rintro ⟨actor, member⟩
    rw [starts.log] at member
    cases member
  have safe := @Discipline.starts_safe build (living build this) client count starts kept fun _ => trivial
  have lives : Living build this world.state := living_sound.everywhere safe rfl (fun _ kept => kept)
    (fun _ _ _ stepped => stepped) (active_tells.reaches first reached)
  have wider (action : Action (kernel build)) (world : World (kernel build))
      (allowed : (reading build this).Allows action world) : (connecting build this).Allows action world := by
    cases action with
    | «continue» => exact fun _ _ _ _ _ => trivial
    | call | resume | environment => exact allowed
  have set : Setting false this (client.sftp this).userauthlist build world.state :=
    setting_everywhere starts unconnected (reached.mono _ wider)
  intro open_
  obtain ⟨reader, owned, alive, _⟩ := lives.reads open_
  obtain ⟨pointer, stage⟩ := set.open_ open_
  exact ⟨reader, pointer, owned, stage, active_tells.running first reached reader alive⟩

section runs

/-- Whether the operation is one with which the loop goes on. -/
def Op.goesOnTest (this : Ptr) (input : Input) (client : Client) : Op → Bool
  | .member _ => (client.sftp this).readThreadCommand = .read
  | .library object call => match client.answer object call.function input with
    | some (answer, _) => answer.goesOn
    | none => true
  | _ => true

/-- The only call is one of `connect`, and nothing ends the loop of its read thread. -/
def readingTest (action : Action (kernel build)) (world : World (kernel build)) : Bool :=
  match action, world.current with
  | .continue input, some actor => match world.threads[actor]? with
    | some (.running (.op o _)) => (world.state.sftp 0).readThreadState != .open_ ||
      owner 0 world.state.log != some actor || o.goesOnTest 0 input world.state
    | _ => true
  | action, _ => connectTest action world

theorem readingTest_allows (action : Action (kernel build)) (world : World (kernel build))
    (passed : readingTest action world = true) : (reading build 0).Allows action world := by
  cases action with
  | «continue» input =>
    intro actor o next current found open_ owned
    have goesOn : o.goesOnTest 0 input world.state = true := by
      simpa [readingTest, current, found, open_, owned] using passed
    cases o with
    | member => simpa [Op.goesOnTest, Op.GoesOn] using goesOn
    | library object call =>
      intro answer script answered
      simpa only [Op.goesOnTest, answered] using goesOn
    | _ => trivial
  | call | resume | environment =>
    exact connectTest_allows _ world (by simpa only [readingTest] using passed)

/-- The command is Read when thread 0 calls `connect`, and thread 1 begins to read. -/
def reads : List (Action (kernel .retro)) :=
  .environment (Input.command 0 .read) :: calling .retro 0 (.connect 0 account) [.status 0 :: List.replicate 4 .none] ++
    World.alone 1 (readerSections.take 16 ++
      [[.none, .none, .none, .none, .answer ⟨.channelEof, (0 : Int), 0⟩, .none, .none]])

def readingWorld : World (kernel .retro) := (World.initial accepting 1).after reads

theorem reading_reached : (reading .retro 0).Reaches (World.initial accepting 1) readingWorld := by
  exact .tested _ readingTest_allows (by decide +kernel)

theorem reader_lives_once : LifeCycle 0 none readingWorld ∧ (readingWorld.state.sftp 0).readThreadState = .open_ :=
  ⟨@reader_lives .retro 0 accepting 1 ⟨rfl, Nat.zero_lt_one⟩ rfl readingWorld reading_reached, rfl⟩

/-- With the command Wait the reader is gone when `connect` returns. -/
theorem reader_gone : (connecting .retro 0).Reaches (World.initial accepting 1) connected ∧
    ¬ LifeCycle 0 none connected := by
  refine ⟨connected_reached, fun lives => ?_⟩
  obtain ⟨reader, pointer, owned, stage, code, running⟩ := lives rfl
  obtain rfl := Option.some.inj ((show owner 0 connected.state.log = some 1 from rfl).symm.trans owned)
  cases (show connected.threads[1]? = some .stopped from rfl).symm.trans running

end runs

end PowerBoot.Transfer
