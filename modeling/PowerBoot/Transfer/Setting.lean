import PowerBoot.Transfer.Discipline
import PowerBoot.Transfer.Operations

/-! Runs in which one object is connected. One thread at a time is responsible for the
set-up, and all others leave alone what it knows. -/

namespace PowerBoot.Transfer
open Coop Code

/-- An object that is connected once and used by its methods after that. -/
def connecting (build : Build) (this : Ptr) : Choices (kernel build) where
  answers _ _ _ _ := True
  calls _ entry client := match entry with
    | .connect object _ => object = this ∧ owner this client.log = none
    | .operate object _ | .destroy object => object = this ∧ ∃ thread, .returned thread (.connected this) ∈ client.log
    | _ => False
  moves _ _ := True

/-- The same, where the failures do not occur that are not looked at. -/
def checking (build : Build) (this : Ptr) : Choices (kernel build) :=
  { connecting build this with
    answers := fun _ o input client => match o with
      | .library object call => ∀ answer script, client.answer object call.function input = some (answer, script) →
        answer.unchecked = false
      | _ => True }

/-- What may come after a failure: the question for its message and the report. -/
def Event.Excused (this : Ptr) (event : Event) : Prop :=
  (∃ thread answer, event = .library thread this .sessionLastError answer) ∨
    ∃ thread format arguments, event = .reported thread format arguments

section setting
variable (strict : Bool) (this : Ptr) (methods : Option String)

/-- The thread reported after the set-up had failed. -/
def Reported (thread : ThreadId) (log : List Event) : Prop :=
  ∃ past format arguments rest, log = past ++ .reported thread format arguments :: rest ∧
    stageOf strict this methods past = some .failed

/-- An event of the thread whose set-up has failed. -/
def Failing (past : List Event) (event : Event) : Prop :=
  stageOf strict this methods past = some .failed → owner this past = some event.thread →
    event.Excused this ∨ Reported strict this methods event.thread past


/-- The calls of the set-up are made by the thread that is responsible for it, and it is
handed over only before the first of them. -/
def Owned (past : List Event) (event : Event) : Prop :=
  (¬ event.Aside this → owner this past = some event.thread) ∧
    (event.owns this ≠ none → stageOf strict this methods past = some .begun)

variable (build : Build)

/-- The set-up is at its end, to which only a thread of its own can bring it and go on. -/
def Completed (log : List Event) : Prop :=
  build = .retro ∧ ∃ pointer, stageOf strict this methods log = some (.opened pointer)

/-- The call of `connect` that returns here finds the set-up at its end. -/
def Returning (past : List Event) (event : Event) : Prop :=
  ∀ thread, event = .returned thread (.connected this) → Completed strict this methods build past

/-- A call of `connect` for this object has returned. -/
def Connected (client : Client) : Prop := ∃ thread, .returned thread (.connected this) ∈ client.log

structure Setting (client : Client) : Prop where
  ordered : ∃ stage, stageOf strict this methods client.log = some stage
  open_ : (client.sftp this).readThreadState = .open_ →
    ∃ pointer, stageOf strict this methods client.log = some (.opened pointer)
  pointer : ∀ {pointer}, stageOf strict this methods client.log = some (.opened pointer) →
    (client.sftp this).sftpPointer = some pointer
  returns : Throughout (Returning strict this methods build) client.log
  failing : Throughout (Failing strict this methods) client.log
  owned : Throughout (Owned strict this methods) client.log
  fresh : owner this client.log = none →
    stageOf strict this methods client.log = some .begun ∧ (client.sftp this).userauthlist = methods

/-- What the thread that sets the object up relies on. -/
structure Kept (before after : Client) : Prop where
  owner : owner this after.log = owner this before.log
  stage : stageOf strict this methods after.log = stageOf strict this methods before.log
  reader : after.readThreadId = before.readThreadId
  list : (after.sftp this).userauthlist = (before.sftp this).userauthlist
  pointer : (after.sftp this).sftpPointer = (before.sftp this).sftpPointer
  errno : (∀ pointer, stageOf strict this methods before.log ≠ some (.opened pointer)) →
    after.session this = before.session this

/-- Where the thread is that sets the object up. -/
structure At (stage : Stage) (list : Option String) (pointer : Option Ptr) (thread : ThreadId) (client : Client) :
    Prop where
  owner : Transfer.owner this client.log = some thread
  stage : stageOf strict this methods client.log = some stage
  reader : build = .retro → client.readThreadId = some thread
  list : (client.sftp this).userauthlist = list
  pointer : (client.sftp this).sftpPointer = pointer

/-- Where the thread is that has just called `connect`. -/
structure Begun (thread : ThreadId) (client : Client) : Prop where
  owner : Transfer.owner this client.log = some thread
  stage : stageOf strict this methods client.log = some .begun
  list : (client.sftp this).userauthlist = methods

def setting : Discipline build where
  choices := if strict then checking build this else connecting build this
  invariant := Setting strict this methods build
  keeps thread before after := owner this before.log = some thread → Kept strict this methods before after
  step _ _ after := Setting strict this methods build after
  idle _ _ := True
  requires entry thread client := match entry with
    | .readThread object _ => object = this ∧ build = .retro ∧
      ∃ pointer, At strict this methods build .begun methods pointer thread client
    | .connect object _ => object = this ∧ Begun strict this methods thread client
    | .operate object _ | .destroy object => object = this ∧ Connected this client
    | .construct _ => False

end setting

variable {build : Build} {strict : Bool} {this : Ptr} {methods list : Option String} {pointer : Option Ptr}
  {thread : ThreadId} {stage : Stage} {before after client : Client} {α : Type}

namespace Kept

theorem refl (client : Client) : Kept strict this methods client client := ⟨rfl, rfl, rfl, rfl, rfl, fun _ => rfl⟩

theorem trans {first middle last : Client} (early : Kept strict this methods first middle)
    (late : Kept strict this methods middle last) : Kept strict this methods first last where
  owner := late.owner.trans early.owner
  stage := late.stage.trans early.stage
  reader := late.reader.trans early.reader
  list := late.list.trans early.list
  pointer := late.pointer.trans early.pointer
  errno closed := (late.errno (by rwa [early.stage])).trans (early.errno closed)

theorem stays (kept : Kept strict this methods before after)
    (there : At strict this methods build stage list pointer thread before) :
    At strict this methods build stage list pointer thread after where
  owner := kept.owner.trans there.owner
  stage := kept.stage.trans there.stage
  reader retro := kept.reader.trans (there.reader retro)
  list := kept.list.trans there.list
  pointer := kept.pointer.trans there.pointer

end Kept

/-- The members of the object that its set-up goes by. -/
structure Agrees (this : Ptr) (before after : Client) : Prop where
  list : (after.sftp this).userauthlist = (before.sftp this).userauthlist
  pointer : (after.sftp this).sftpPointer = (before.sftp this).sftpPointer
  state : (after.sftp this).readThreadState = (before.sftp this).readThreadState

theorem Agrees.refl (client : Client) : Agrees this client client := ⟨rfl, rfl, rfl⟩

theorem Agrees.update {object : Ptr} {change : Sftp → Sftp} {client : Client}
    (list : ∀ sftp, (change sftp).userauthlist = sftp.userauthlist)
    (pointer : ∀ sftp, (change sftp).sftpPointer = sftp.sftpPointer)
    (state : ∀ sftp, (change sftp).readThreadState = sftp.readThreadState) :
    Agrees this client (client.update object change) := by
  by_cases same : this = object
  · subst same
    constructor <;> rw [Client.update_same]
    · exact list _
    · exact pointer _
    · exact state _
  · constructor <;> rw [Client.update_other same]

/-- An operation that is no part of a set-up. -/
def Op.Aside : Op → Prop
  | .library _ call => call.function.setsUp = false
  | .assign _ assigned => (∃ sock, assigned = .sock sock) ∨ ∃ channel, assigned = .channel channel
  | .newThread => False
  | _ => True

theorem Op.Minor.aside {o : Op} (minor : o.Minor) : o.Aside := by
  cases o with
  | library this call => exact (show call = .sessionLastError from minor) ▸ rfl
  | newThread | assign => exact minor.elim
  | _ => trivial

/-- The operations that the thread may use after a failure, up to its report. -/
def Op.Mute (this : Ptr) : Op → Prop
  | .library object call => object = this ∧ call = .sessionLastError
  | .waited _ | .noMessage => False
  | _ => True

namespace Setting
variable {event : Event}

theorem silent (setting : Setting strict this methods build before) (log : after.log = before.log)
    (agrees : Agrees this before after) : Setting strict this methods build after where
  ordered := log ▸ setting.ordered
  open_ open_ := log ▸ setting.open_ (agrees.state ▸ open_)
  pointer opened := agrees.pointer.trans (setting.pointer (log ▸ opened))
  returns := log ▸ setting.returns
  failing := log ▸ setting.failing
  owned := log ▸ setting.owned
  fresh none := by
    rw [log] at none ⊢
    rw [agrees.list]
    exact setting.fresh none

theorem goesOn (setting : Setting strict this methods build before) (log : after.log = before.log ++ [event])
    (agrees : Agrees this before after) (aside : event.Aside this)
    (returns : Returning strict this methods build before.log event)
      (failing : Failing strict this methods before.log event)
    (owns : event.owns this ≠ none → stageOf strict this methods before.log = some .begun) :
    Setting strict this methods build after := by
  have same : stageOf strict this methods after.log = stageOf strict this methods before.log :=
    log ▸ stageOf_aside aside
  refine ⟨same ▸ setting.ordered, fun open_ => same ▸ setting.open_ (agrees.state ▸ open_), fun opened => ?_, ?_, ?_,
    ?_, ?_⟩
  · exact agrees.pointer.trans (setting.pointer (same ▸ opened))
  · exact log ▸ throughout_concat.mpr ⟨setting.returns, returns⟩
  · exact log ▸ throughout_concat.mpr ⟨setting.failing, failing⟩
  · exact log ▸ throughout_concat.mpr ⟨setting.owned, fun call => (call aside).elim, owns⟩
  · rw [same, log, owner_concat, agrees.list]
    exact fun none => setting.fresh (Option.or_eq_none_iff.mp none).2

end Setting

/-- One operation that is no part of the set-up: the state goes on with one event or none. -/
structure Passes (this : Ptr) (thread : ThreadId) (before after : Client) (events : List Event) : Prop where
  log : after.log = before.log ++ events
  few : events = [] ∨ ∃ event, events = [event]
  own : ∀ event ∈ events, event.thread = thread ∧ event.Aside this ∧ event.owns this = none ∧
    ∀ actor, event ≠ .returned actor (.connected this)
  agrees : Agrees this before after
  reader : after.readThreadId = before.readThreadId

namespace Passes
variable {events : List Event} {event : Event}

theorem silent (same : after = before) : Passes this thread before after [] := by
  subst same
  exact ⟨(List.append_nil _).symm, .inl rfl, fun _ member => (List.not_mem_nil member).elim, .refl _, rfl⟩

theorem record (own : event.thread = thread) (aside : event.Aside this) (owns : event.owns this = none)
    (returns : ∀ actor, event ≠ .returned actor (.connected this)) : Passes this thread before (before.record event)
      [event] where
  log := rfl
  few := .inr ⟨event, rfl⟩
  own found member := by
    obtain rfl := List.mem_singleton.mp member
    exact ⟨own, aside, owns, returns⟩
  agrees := ⟨rfl, rfl, rfl⟩
  reader := rfl

theorem threw : Passes this thread before (before.record (.threw thread)) [.threw thread] :=
  .record rfl (fun _ shown => by cases shown) rfl fun _ same => by cases same

theorem exited : Passes this thread before (before.record (.exited thread)) [.exited thread] :=
  .record rfl (fun _ shown => by cases shown) rfl fun _ same => by cases same

theorem disposed {other : ThreadId} :
    Passes this thread before (before.record (.disposed thread other)) [.disposed thread other] :=
  .record rfl (fun _ shown => by cases shown) rfl fun _ same => by cases same

theorem sameStage (passes : Passes this thread before after events) :
    stageOf strict this methods after.log = stageOf strict this methods before.log := by
  rw [passes.log]
  exact stageOf_asides fun event member => (passes.own event member).2.1

theorem sameOwner (passes : Passes this thread before after events) :
    Transfer.owner this after.log = Transfer.owner this before.log := by
  rw [passes.log]
  rcases passes.few with rfl | ⟨event, rfl⟩
  · rw [List.append_nil]
  · rw [owner_concat, (passes.own event (List.mem_singleton_self _)).2.2.1, Option.none_or]

theorem stays (passes : Passes this thread before after events) {actor : ThreadId}
    (there : At strict this methods build stage list pointer actor before) :
    At strict this methods build stage list pointer actor after where
  owner := passes.sameOwner.trans there.owner
  stage := passes.sameStage.trans there.stage
  reader retro := passes.reader.trans (there.reader retro)
  list := passes.agrees.list.trans there.list
  pointer := passes.agrees.pointer.trans there.pointer

theorem kept (passes : Passes this thread before after events)
    (errno : (∀ pointer, stageOf strict this methods before.log ≠ some (.opened pointer)) →
      after.session this = before.session this) : Kept strict this methods before after where
  owner := passes.sameOwner
  stage := passes.sameStage
  reader := passes.reader
  list := passes.agrees.list
  pointer := passes.agrees.pointer
  errno := errno

theorem setting (passes : Passes this thread before after events) (setting : Setting strict this methods build before)
    (failing : ∀ event ∈ events, Failing strict this methods before.log event) :
      Setting strict this methods build after := by
  have log := passes.log
  rcases passes.few with rfl | ⟨event, rfl⟩
  · exact setting.silent (log.trans (List.append_nil _)) passes.agrees
  · obtain ⟨_, aside, owns, returns⟩ := passes.own event (List.mem_singleton_self _)
    exact setting.goesOn log passes.agrees aside (fun actor same => (returns actor same).elim)
      (failing event (List.mem_singleton_self _)) fun some => (some owns).elim

end Passes

theorem exec_passes {o : Op} (aside : o.Aside) {input : Input} {reply : o.Reply}
    (executed : exec thread o input before = some (reply, after)) :
    ∃ events, Passes this thread before after events ∧ o.Logs thread reply events := by
  cases o with
  | library object call =>
    obtain ⟨answer, script, _, given, rfl⟩ := exec_library.mp executed
    have made : (Event.library thread object call answer).Aside this := by
      intro found shown
      simp only [Event.answer, Option.ite_none_right_eq_some, Option.some.injEq] at shown
      rwa [← shown.2, Answer.for_iff.mp given]
    have recorded := @Passes.record this thread before _ rfl made rfl fun _ same => by cases same
    exact ⟨_, ⟨rfl, recorded.few, recorded.own, ⟨rfl, rfl, rfl⟩, rfl⟩, answer, given, rfl⟩
  | assign object assigned =>
    cases executed
    refine ⟨[], ⟨(List.append_nil _).symm, .inl rfl, fun _ member => (List.not_mem_nil member).elim, ?_, rfl⟩, rfl⟩
    rcases aside with ⟨value, rfl⟩ | ⟨value, rfl⟩ <;> exact .update (fun _ => rfl) (fun _ => rfl) fun _ => rfl
  | waited | report | noMessage =>
    cases executed
    exact ⟨_, .record rfl (fun _ shown => by cases shown) rfl (fun _ same => by cases same), rfl⟩
  | setRc =>
    cases executed
    exact ⟨[], ⟨(List.append_nil _).symm, .inl rfl, fun _ member => (List.not_mem_nil member).elim, ⟨rfl, rfl, rfl⟩,
      rfl⟩, rfl⟩
  | newThread => exact aside.elim
  | _ => exact ⟨[], .silent (exec_steady executed trivial), rfl⟩

theorem Connected.grows {other : ThreadId} (connected : Connected this before) (grows : Grows other before after) :
    Connected this after := by
  obtain ⟨more, log, _⟩ := grows.log
  obtain ⟨caller, member⟩ := connected
  exact ⟨caller, log ▸ List.mem_append_left _ member⟩

theorem setting_regular : (setting strict this methods build).Regular where
  refl _ client _ := .refl client
  trans early late owns := by
    have first := early owns
    exact first.trans (late (first.owner.trans owns))
  fresh _ _ := trivial
  idles _ _ _ := trivial
  readies {entry actor before after} grows keeps ready := by
    cases entry with
    | construct => exact ready
    | operate | destroy => exact ⟨ready.1, ready.2.grows grows⟩
    | readThread =>
      obtain ⟨rfl, retro, pointer, there⟩ := ready
      exact ⟨rfl, retro, pointer, (keeps there.owner).stays there⟩
    | connect =>
      obtain ⟨rfl, owner, stage, list⟩ := ready
      have kept := keeps owner
      exact ⟨rfl, kept.owner.trans owner, kept.stage.trans stage, kept.list.trans list⟩

/-- Where the thread that sets the object up is, in a section that may end here. -/
abbrev Amid (build : Build) (strict : Bool) (this : Ptr) (methods : Option String) (thread : ThreadId) (stage : Stage)
    (list : Option String) (pointer : Option Ptr) : Client → Client → Prop :=
  (setting strict this methods build).rules.Works thread (At strict this methods build stage list pointer thread)

/-- The others rely on nothing of what the owner changes. -/
theorem ends_owner (owns : Transfer.owner this before.log = some thread)
    (kept : Setting strict this methods build after) (grows : ∀ other, other ≠ thread → Grows other before after) :
    (setting strict this methods build).rules.Ends thread before after := by
  refine ⟨kept, fun other different => ⟨grows other different, fun another => ?_⟩⟩
  exact (different (Option.some.inj (another.symm.trans owns))).elim

theorem Reported.mono {past log more : List Event} (reported : Reported strict this methods thread past)
    (longer : log = past ++ more) : Reported strict this methods thread log := by
  obtain ⟨early, format, arguments, rest, split, failed⟩ := reported
  exact ⟨early, format, arguments, rest ++ more, by simp [longer, split], failed⟩

/-- What the owner may do without a change of the stage. -/
def minding (this : Ptr) (stage : Stage) : Allowance signature where
  ops o := o.Aside ∧ (stage = .failed → o.Mute this)
  throws := stage ≠ .failed

theorem minding_bears : (setting strict this methods build).rules.Bears thread (minding this stage)
    (At strict this methods build stage list pointer thread) where
  op o input now reply after may _ executed kept there := by
    obtain ⟨aside, mute⟩ := may
    obtain ⟨events, passes, logs⟩ := exec_passes aside executed
    have set : Setting strict this methods build after := by
      refine passes.setting kept fun event member failed _ => Or.inl ?_
      have mute := mute (Option.some.inj (there.stage.symm.trans failed))
      cases o with
      | library object call =>
        obtain ⟨rfl, rfl⟩ := mute
        obtain ⟨answer, _, rfl⟩ := logs
        exact Or.inl ⟨thread, answer, List.mem_singleton.mp member⟩
      | report format arguments =>
        cases (show events = _ from logs)
        exact Or.inr ⟨thread, format, arguments, List.mem_singleton.mp member⟩
      | waited | noMessage => exact mute.elim
      | _ =>
        cases (show events = _ from logs)
        exact (List.not_mem_nil member).elim
    exact ⟨set, ends_owner there.owner set fun _ different => .exec different executed, passes.stays there, trivial⟩
  waits _ _ _ moved _ there := (moved.2 there.owner).stays there
  threw may now kept there := by
    have set := (@Passes.threw this thread now).setting kept fun _ _ failed =>
      (may (Option.some.inj (there.stage.symm.trans failed))).elim
    exact ⟨ends_owner there.owner set fun _ different => .record rfl different, trivial⟩
  exited never := never.elim
  spawned _ _ _ never := never.elim
  disposed _ _ never := never.elim

end PowerBoot.Transfer
