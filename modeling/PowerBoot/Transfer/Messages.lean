import PowerBoot.Transfer.Attempts
import PowerBoot.Transfer.Discipline
import PowerBoot.Transfer.Operations

/-! The messages of errors. `error_msg` is empty for the number 1, and the loops that open
a file or a directory show the number that the operation before them left in `rc`. -/

namespace PowerBoot.Transfer
open Coop Code

variable {build : Build} {thread : ThreadId} {this : Ptr} {α : Type}

/-- One thread calls operations on one object, in any order. -/
def operating (build : Build) (thread : ThreadId) (this : Ptr) : Choices (kernel build) where
  answers _ _ _ _ := True
  calls actor entry _ := actor = thread ∧ ∃ operation, entry = .operate this operation
  moves _ _ := True

/-- The same, where no file or directory fails to open while `rc` is 1. -/
def opening (build : Build) (thread : ThreadId) (this : Ptr) : Choices (kernel build) :=
  { operating build thread this with
    answers := fun _ o input client => match o with
      | .library object (.sftpOpenEx ..) => ∀ answer script, client.answer object .sftpOpenEx input = some
          (answer, script) →
        answer.fails = true → answer.errno = LIBSSH2_ERROR_EAGAIN ∨ client.rc (.sftp object) ≠ 1
      | _ => True }

/-- No optional was used that holds nothing. -/
def Spoken (client : Client) : Prop := ∀ actor, .noMessage actor ∉ client.log

def messages (build : Build) (thread : ThreadId) (this : Ptr) : Discipline build where
  choices := opening build thread this
  invariant := Spoken
  keeps actor before after := actor = thread → after.rc = before.rc ∧ after.session = before.session
  step _ _ after := Spoken after
  idle _ _ := True
  requires entry actor _ := actor = thread ∧ ∃ operation, entry = .operate this operation

theorem messages_regular : (messages build thread this).Regular where
  refl _ _ _ := ⟨rfl, rfl⟩
  trans early late mine := ⟨(late mine).1.trans (early mine).1, (late mine).2.trans (early mine).2⟩
  fresh _ _ := trivial
  idles _ _ _ := trivial
  readies _ _ ready := ready

/-- The operations that need no message. -/
def Op.Quiet (o : Op) : Prop := o ≠ .noMessage

theorem Spoken.exec {o : Op} {input : Input} {client after : Client} {reply : o.Reply} (spoken : Spoken client)
    (quiet : o.Quiet) (executed : exec thread o input client = some (reply, after)) : Spoken after := by
  obtain ⟨events, log, logs⟩ := exec_log executed
  intro actor member
  rw [log] at member
  rcases List.mem_append.mp member with before | now
  · exact spoken actor before
  · cases o with
    | noMessage => exact quiet rfl
    | library =>
      obtain ⟨_, _, rfl⟩ := logs
      simp at now
    | _ =>
      cases (show events = _ from logs)
      simp at now

theorem Spoken.record {client : Client} {event : Event} (spoken : Spoken client)
    (other : ∀ actor, event ≠ .noMessage actor) : Spoken (client.record event) := by
  intro actor member
  rcases List.mem_append.mp member with before | last
  · exact spoken actor before
  · exact other actor (List.mem_singleton.mp last).symm

theorem messages_routine :
    (messages build thread this).rules.Routine thread Op.Quiet (fun _ => False) fun _ => True where
  op o input now reply after quiet _ executed kept _ := by
    have spoken := Spoken.exec kept quiet executed
    exact ⟨spoken, Discipline.ends_op executed spoken fun _ different mine => (different mine).elim, trivial⟩
  waits _ _ _ _ _ _ := trivial
  threw now kept _ := by
    refine ⟨Discipline.ends_record rfl (Spoken.record kept fun _ => ?_) fun _ different mine => (different mine).elim,
      trivial⟩
    simp
  exited now kept _ := by
    exact Discipline.ends_record rfl (Spoken.record kept fun _ => by simp) fun _ different mine => (different mine).elim
  spawned _ _ _ never := never.elim
  disposed other now kept _ := by
    have spoken : Spoken (now.record (.disposed thread other)) := Spoken.record kept fun _ => by simp
    exact ⟨spoken, Discipline.ends_record rfl spoken fun _ different mine => (different mine).elim, trivial⟩

section operations
variable {start now : Client} {post : α → Client → Client → Prop}

theorem quiet_minor (o : Op) (minor : o.Minor) : o.Quiet := by
  rintro rfl
  exact minor

/-- Code that starts and finishes with nothing known. -/
abbrev Speaks (build : Build) (thread : ThreadId) (this : Ptr) {α : Type} (code : Program α) : Prop :=
  (messages build thread this).rules.Stays thread (fun _ => True) code

theorem speaks_uses {code : Program α} (uses : code.Uses Op.Quiet fun _ => False) : Speaks build thread this code :=
  messages_routine.stays messages_regular.orderly uses

theorem speaks_waits : Waits build this fun {_} code => Speaks build thread this code :=
  waits_of Rules.Stays.composes (fun o minor => speaks_uses (perform_uses (quiet_minor o minor)))
    (speaks_uses yieldToAnyThread_uses) fun {α} => @speaks_uses build thread this α .throw trivial

theorem errorThrow_speaks (format : String) (arguments : List String) :
    Speaks build thread this (errorThrow build format arguments) := speaks_uses (errorThrow_uses quiet_minor nofun)

theorem rcError_speaks {Memory : Type} {funcname : String} {rc : Owner} {memory : Memory} :
    Speaks build thread this (rcError build funcname this rc memory) := by
  intro start now opening
  rw [rcError]
  simp only [bind_eq]
  refine Discipline.holds_read (fun _ => rfl) opening.ends.invariant ?_
  by_cases negative : now.rc rc < 0
  · simp only [when, if_pos negative, bind_assoc]
    refine Discipline.holds_read (fun _ => rfl) opening.ends.invariant ?_
    have named : now.rc rc ≠ 1 := by omega
    refine (speaks_waits.message (.inl named)).then opening fun msg start now opening => ?_
    exact (errorThrow_speaks _ _).then opening fun _ start now opening => opening
  · simp only [when, if_neg negative, Code.pure_bind]
    exact opening

theorem rcErrHandle_speaks {Memory : Type} {funcname : String} {rc : Owner} {cmd : Memory → Program (Int × Memory)}
    {memory : Memory} (cmds : ∀ memory, Speaks build thread this (cmd memory)) :
    Speaks build thread this (rcErrHandle build funcname this rc cmd memory) := by
  rw [rcErrHandle_eq]
  refine speaks_waits.bind (speaks_waits.blind (.setRc rc LIBSSH2_ERROR_EAGAIN) trivial) fun _ => ?_
  exact speaks_waits.bind (speaks_waits.rcLoop cmds) fun _ => rcError_speaks

/-- An answer to an open loop, which fails only where `rc` is not 1. -/
def Answered (this : Ptr) (handle : Option Ptr) (client : Client) : Prop :=
  handle = none → (client.session this).errno = LIBSSH2_ERROR_EAGAIN ∨ client.rc (.sftp this) ≠ 1

theorem openEx_speaks {filename : Bytes} {flags mode openType : Int} :
    Speaks build thread this (openEx build this filename flags mode openType) := by
  have regular := @messages_regular build thread this
  refine speaks_waits.iterate fun _ start now opening => ?_
  simp only [network, bind_eq, bind_assoc]
  refine speaks_waits.sftpPointer.then opening fun sftp start now opening => ?_
  refine speaks_waits.yields.then opening fun _ start now opening => ?_
  refine Discipline.holds_op opening regular fun input (handle : Option Ptr) after answered executed => ?_
  have spoken := Spoken.exec opening.ends.invariant (by simp [Op.Quiet]) executed
  refine ⟨spoken, spoken, fun _ different mine => (different mine).elim, fun ends => ?_⟩
  have known : Answered this handle after := by
    rintro rfl
    obtain ⟨answer, script, found, given, rfl⟩ := exec_library.mp executed
    rw [Client.answered_session]
    have fails : answer.fails = true := by
      rw [Answer.for_iff.mp given]
      rfl
    exact answered answer script found fails
  have works : (messages build thread this).rules.Works thread (Answered this handle) start after := ⟨ends, known⟩
  have waits (before after : Client) (_ : Spoken after) (_ : Grows thread before after)
      (keeps : (messages build thread this).keeps thread before after) (known : Answered this handle before) :
      Answered this handle after := by
    rwa [Answered, (keeps rfl).1, (keeps rfl).2]
  refine Discipline.holds_yieldToAnyThread works regular waits fun start now works => ?_
  cases handle with
  | some handle => exact ⟨works.ends, trivial⟩
  | none =>
    refine Discipline.holds_read (fun _ => rfl) works.ends.invariant ?_
    have opening : (messages build thread this).rules.Works thread (fun _ => True) start now := works.mono trivial
    split
    · exact speaks_waits.wait.then opening fun _ _ _ opening => opening
    next definite =>
      refine Discipline.holds_read (fun _ => rfl) works.ends.invariant ?_
      have named := (works.holds rfl).resolve_left definite
      refine (speaks_waits.message (.inl named)).then opening fun msg start now opening => ?_
      exact (errorThrow_speaks _ _).then opening fun _ start now opening => opening

theorem speaks_methods : Methods build this fun {_} code => Speaks build thread this code where
  toWaits := speaks_waits
  calls call _ := speaks_uses (perform_uses (by simp [Op.Quiet]))
  rcErrHandle := rcErrHandle_speaks
  openEx := openEx_speaks

end operations

theorem messages_sound : (messages build thread this).rules.Sound := by
  refine messages_regular.sound ?_ ?_ ?_
  · rintro actor _ client ⟨rfl, operation, rfl⟩ kept _ _
    refine ⟨Spoken.record kept fun _ => by simp, ⟨rfl, operation, rfl⟩, fun _ different mine => (different mine).elim⟩
  · exact fun _ kept => ⟨kept, fun _ _ => ⟨rfl, rfl⟩⟩
  · rintro _ actor client kept ⟨rfl, operation, rfl⟩
    have orderly := (@messages_regular build actor this).orderly
    apply (speaks_methods.operate operation _ _ (.begins orderly kept trivial)).mono
    intro value start now opening
    refine ⟨opening.ends.trans orderly (Discipline.ends_record rfl ?_ fun _ different mine => (different mine).elim),
      trivial⟩
    exact Spoken.record opening.ends.invariant fun _ => by simp

/-- In every run of operations of one object, each optional that is used holds a message,
as long as nothing fails to open while `rc` is 1. -/
theorem messages_exist {client : Client} {count : Nat} (starts : client.Starts count) {world : World (kernel build)}
    (reached : (opening build thread this).Reaches (World.initial client count) world) :
    ∀ actor, .noMessage actor ∉ world.state.log := by
  have spoken : Spoken client := by simp [Spoken, starts.log]
  have safe := @Discipline.starts_safe build (messages build thread this) client count starts spoken fun _ => trivial
  exact messages_sound.everywhere safe rfl (fun _ kept => kept) (fun _ _ _ stepped => stepped) reached

section runs

/-- Operations of object 0 on thread 0, where what fails to open does so while `rc` is not 1. -/
private def spokenTest (action : Action (kernel .retro)) (world : World (kernel .retro)) : Bool :=
  match action, world.current with
  | .call thread (.operate this _), _ => thread = 0 && this = 0
  | .call .., _ => false
  | .continue input, some actor => match world.threads[actor]? with
    | some (.running (.op (.library object (.sftpOpenEx ..)) _)) =>
      match world.state.answer object .sftpOpenEx input with
      | some (answer, _) => !answer.fails || world.state.rc (.sftp object) != 1
      | none => true
    | _ => true
  | _, _ => true

private theorem spokenTest_allows (action : Action (kernel .retro)) (world : World (kernel .retro))
    (passed : spokenTest action world = true) : (opening .retro 0 0).Allows action world := by
  cases action with
  | call thread entry =>
    cases entry with
    | operate this operation =>
      obtain ⟨rfl, rfl⟩ : thread = 0 ∧ this = 0 := by simpa [spokenTest] using passed
      exact ⟨rfl, operation, rfl⟩
    | _ => simp [spokenTest] at passed
  | «continue» input =>
    intro actor o next current found
    cases o with
    | library object call =>
      cases call with
      | sftpOpenEx =>
        intro answer script answered fails
        simp only [spokenTest, current, found, answered, fails] at passed
        exact Or.inr (by simpa using passed)
      | _ => trivial
    | _ => trivial
  | resume | environment => trivial

private def missing : Client := answering 0 [⟨.sftpOpenEx, none, -31⟩, ⟨.sessionLastError, "No such file", -31⟩]

private def opendirs : List (Action (kernel .retro)) :=
  calling .retro 0 (.operate 0 (.opendir [47])) (steps [3, 2, 5, 2])

private def unopened : World (kernel .retro) := (World.initial missing 1).after opendirs

theorem messages_exist_unopened : .noMessage 0 ∉ unopened.state.log :=
  @messages_exist .retro 0 0 missing 1 ⟨rfl, Nat.zero_lt_one⟩ unopened (.tested _ spokenTest_allows (by decide +kernel))
    0

private def linked : Client := answering 0 [⟨.sftpSymlinkEx, (1 : Int), 0⟩, ⟨.sftpOpenEx, none, -31⟩]

private def operatesTest (action : Action (kernel .retro)) (_ : World (kernel .retro)) : Bool :=
  match action with
  | .call thread (.operate this _) => thread = 0 && this = 0
  | .call .. => false
  | _ => true

private theorem operatesTest_allows (action : Action (kernel .retro)) (world : World (kernel .retro))
    (passed : operatesTest action world = true) : (operating .retro 0 0).Allows action world := by
  cases action with
  | call thread entry =>
    cases entry with
    | operate this operation =>
      obtain ⟨rfl, rfl⟩ : thread = 0 ∧ this = 0 := by simpa [operatesTest] using passed
      exact ⟨rfl, operation, rfl⟩
    | _ => cases passed
  | «continue» => exact fun _ _ _ _ _ => trivial
  | resume | environment => trivial

private def links : List (Action (kernel .retro)) :=
  calling .retro 0 (.operate 0 (.readlink [97] [98])) (steps [5, 2, 6]) ++ opendirs

private def unspoken : World (kernel .retro) := (World.initial linked 1).after links

theorem message_missing : (operating .retro 0 0).Reaches (World.initial linked 1) unspoken ∧
    .noMessage 0 ∈ unspoken.state.log := by
  refine ⟨.tested _ operatesTest_allows (by decide +kernel), ?_⟩
  refine List.mem_of_getElem? (show unspoken.state.log[5]? = some _ from rfl)

end runs

end PowerBoot.Transfer
